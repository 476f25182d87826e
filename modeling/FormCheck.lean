import FormCheck.Proofs.DatePattern.Acceptance
import FormCheck.Proofs.DatePattern.Equality
import FormCheck.Proofs.DatePattern.Names
import FormCheck.Proofs.DatePattern.Notations
import FormCheck.Proofs.DatePattern.Reality
import FormCheck.Proofs.DatePattern.Rendering
import FormCheck.Proofs.DatePattern.Timestamp
import FormCheck.Proofs.DatePattern.Units
import FormCheck.Proofs.Decimal.Rounding
import FormCheck.Proofs.Email
import FormCheck.Proofs.Engine.Composition
import FormCheck.Proofs.Engine.Locality
import FormCheck.Proofs.Engine.Report
import FormCheck.Proofs.Fields.Json
import FormCheck.Proofs.Log.DebugLines
import FormCheck.Proofs.Log.JsonLines
import FormCheck.Proofs.Log.Timestamps
import FormCheck.Proofs.Registry.Operations
import FormCheck.Proofs.Schema.Documents
import FormCheck.Proofs.Session.History
import FormCheck.Proofs.Validator.Length
import FormCheck.Validator.Extras

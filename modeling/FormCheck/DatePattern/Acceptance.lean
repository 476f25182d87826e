import FormCheck.DatePattern.Reading
import FormCheck.Regex.Acceptance

/-!
# The values that a date pattern accepts

## Main definitions

* `DatePattern.accepts`: the reader has to take all of a value, a day or a time that the pattern
  determines has to be real, and the value has to have the shape of the pattern.
-/

namespace FormCheck.DatePattern

def read? (p : DatePattern) (value : List Char) : Option Reading :=
  Reading.ofPieces p.pieces {} value

/-- Whether the reading is real as far as the pattern determines a day or a time. -/
def isConsistent (p : DatePattern) (r : Reading) : Bool :=
  (!p.hasDate || r.isRealDate) && (!p.hasTime || r.isRealTime)

def accepts (p : DatePattern) (value : String) : Bool :=
  (p.read? value.toList).any p.isConsistent && p.shape.accepts value.toList

end FormCheck.DatePattern

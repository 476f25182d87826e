import FormCheck.Json.Numeral
import FormCheck.Text.Hexadecimal

/-!
# JSON tokens

## Main definitions

* `Json.Token`: the tokens of a JSON text. A string whose escapes leave half of a surrogate pair
  alone is well formed and has no text.
* `Json.takeString`: takes a string after its opening quote.
* `Json.tokens?`: the tokens of a whole text.
-/

namespace FormCheck.Json

inductive Token where
  | openArray
  | closeArray
  | openObject
  | closeObject
  | comma
  | colon
  | null
  | bool (b : Bool)
  | number (n : Numeral)
  | string (text : Option String)
deriving DecidableEq, Repr

/-! ## Strings -/

/-- One step of a string: a character, or a code unit given by an escape. -/
inductive StringUnit where
  | char (c : Char)
  | unit (n : Nat)
deriving DecidableEq, Repr

/-- The character that a short escape stands for. -/
def shortEscape? : Char → Option Char
  | '"' => some '"'
  | '\\' => some '\\'
  | '/' => some '/'
  | 'b' => some '\x08'
  | 'f' => some '\x0c'
  | 'n' => some '\n'
  | 'r' => some '\r'
  | 't' => some '\t'
  | _ => none

/-- Takes the units of a string up to its closing quote. -/
def takeUnits : List Char → Option (List StringUnit × List Char)
  | [] => none
  | '"' :: s => some ([], s)
  | '\\' :: 'u' :: a :: b :: c :: d :: s => do
    let n ← Text.hexNumber? [a, b, c, d]
    let (us, rest) ← takeUnits s
    return (.unit n :: us, rest)
  | '\\' :: c :: s => do
    let e ← shortEscape? c
    let (us, rest) ← takeUnits s
    return (.char e :: us, rest)
  | c :: s =>
    if c.toNat < 0x20 ∨ c = '\\' then none
    else do
      let (us, rest) ← takeUnits s
      return (.char c :: us, rest)

def isHighSurrogate (n : Nat) : Bool := 0xd800 ≤ n && n < 0xdc00

def isLowSurrogate (n : Nat) : Bool := 0xdc00 ≤ n && n < 0xe000

/-- The text of units, in which every surrogate has to be part of a pair. -/
def decodeUnits? : List StringUnit → Option (List Char)
  | [] => some []
  | .char c :: us => (decodeUnits? us).map (c :: ·)
  | .unit n :: .unit m :: us =>
    if isHighSurrogate n then
      if isLowSurrogate m then
        (decodeUnits? us).map (.ofNat (0x10000 + (n - 0xd800) * 0x400 + (m - 0xdc00)) :: ·)
      else none
    else if isLowSurrogate n then none
    else (decodeUnits? (.unit m :: us)).map (.ofNat n :: ·)
  | .unit n :: us =>
    if isHighSurrogate n || isLowSurrogate n then none
    else (decodeUnits? us).map (.ofNat n :: ·)

/-- Takes a string after its opening quote. -/
def takeString (s : List Char) : Option (Option String × List Char) :=
  (takeUnits s).map fun (us, rest) => ((decodeUnits? us).map String.ofList, rest)

/-! ## Tokens -/

/-- JSON has four blank characters. -/
def isBlank (c : Char) : Bool := c == ' ' || c == '\n' || c == '\t' || c == '\r'

/-- Takes the token that starts with a character that is not blank. -/
def takeToken : List Char → Option (Token × List Char)
  | '[' :: s => some (.openArray, s)
  | ']' :: s => some (.closeArray, s)
  | '{' :: s => some (.openObject, s)
  | '}' :: s => some (.closeObject, s)
  | ',' :: s => some (.comma, s)
  | ':' :: s => some (.colon, s)
  | 'n' :: 'u' :: 'l' :: 'l' :: s => some (.null, s)
  | 't' :: 'r' :: 'u' :: 'e' :: s => some (.bool true, s)
  | 'f' :: 'a' :: 'l' :: 's' :: 'e' :: s => some (.bool false, s)
  | '"' :: s => (takeString s).map fun (t, rest) => (.string t, rest)
  | s => (Numeral.take s).map fun (n, rest) => (.number n, rest)

/-- The tokens of a text, of which there are fewer than `fuel`. -/
def tokensWithin? : Nat → List Char → Option (List Token)
  | 0, _ => none
  | _ + 1, [] => some []
  | fuel + 1, c :: s =>
    if isBlank c then tokensWithin? fuel s
    else do
      let (t, rest) ← takeToken (c :: s)
      return t :: (← tokensWithin? fuel rest)

/-- The tokens of a text. Each takes at least one character. -/
def tokens? (s : List Char) : Option (List Token) := tokensWithin? (s.length + 1) s

end FormCheck.Json

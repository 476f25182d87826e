import FormCheck.DatePattern.Token

/-!
# Date patterns

A date pattern is a sequence of pieces: tokens and characters that stand for themselves. A
backslash makes the next character stand for itself; every other ASCII letter is a token or an
error, and every other character stands for itself.

A matcher may refuse to build the expression of a very long shape, which would be a third error.
Where its limit lies is not part of the pattern, and shapes are taken to be below it.

## Main definitions

* `Piece`, `PatternError`, `DatePattern`.
* `DatePattern.compile`: reads a pattern.
* `DatePattern.conversionText`, `DatePattern.shapeText`: the two notations of a whole pattern,
  which decide when two patterns are equal.
* `DatePattern.hasDate`, `DatePattern.hasTime`: whether the pattern determines a day or a time.
-/

namespace FormCheck

namespace DatePattern

/-- A token, or a character that stands for itself. -/
inductive Piece where
  | token (t : Token)
  | literal (c : Char)
deriving DecidableEq, Repr

end DatePattern

/-- What can be wrong with a pattern whose shape is not too large for a matcher. -/
inductive PatternError where
  | unsupportedToken (c : Char)
  | danglingEscape
deriving DecidableEq, Repr

namespace PatternError

def message : PatternError → String
  | unsupportedToken c => "Unsupported date format character '" ++ c.toString ++ "'"
  | danglingEscape => "Date format ends with an escape character"

end PatternError

structure DatePattern where
  pieces : List DatePattern.Piece
deriving Repr

namespace DatePattern

/-! ## Reading a pattern -/

/-- The pieces of a pattern, or the error of the leftmost place that is no piece. -/
def compilePieces : List Char → Except PatternError (List Piece)
  | [] => .ok []
  | '\\' :: [] => .error .danglingEscape
  | '\\' :: c :: rest => (compilePieces rest).map (.literal c :: ·)
  | c :: rest =>
    match Token.ofLetter? c with
    | some t => (compilePieces rest).map (.token t :: ·)
    | none =>
      if c.isAlpha then .error (.unsupportedToken c)
      else (compilePieces rest).map (.literal c :: ·)

def compile (pattern : String) : Except PatternError DatePattern :=
  (compilePieces pattern.toList).map DatePattern.mk

/-! ## The two notations -/

/-- The characters that a regular expression reads as operators. -/
def metaCharacters : List Char :=
  ['\\', '.', '+', '*', '?', '(', ')', '|', '[', ']', '{', '}', '^', '$', '#', '&', '-', '~']

namespace Piece

/-- A percent sign starts a conversion, so a literal one is doubled. -/
def conversion : Piece → String
  | token t => t.conversion
  | literal c => if c = '%' then "%%" else c.toString

def shape : Piece → Regex
  | token t => t.shape
  | literal c => .exactly c

def shapeText : Piece → String
  | token t => t.shapeText
  | literal c => if c ∈ metaCharacters then "\\" ++ c.toString else c.toString

end Piece

def conversionText (p : DatePattern) : String :=
  String.join (p.pieces.map Piece.conversion)

def shape (p : DatePattern) : Regex :=
  .chain (p.pieces.map Piece.shape)

/-- The written form of `shape`, which spans the whole text. -/
def shapeText (p : DatePattern) : String :=
  "\\A" ++ String.join (p.pieces.map Piece.shapeText) ++ "\\z"

/-- Patterns are equal if both of their notations are. -/
instance : BEq DatePattern :=
  ⟨fun p q => p.conversionText == q.conversionText && p.shapeText == q.shapeText⟩

/-! ## What a pattern determines -/

/-- Whether one of the tokens has a property. -/
def hasToken (p : DatePattern) (f : Token → Bool) : Bool :=
  p.pieces.any fun
    | .token t => f t
    | .literal _ => false

/-- Whether the pattern gives a year, a month and a day. -/
def hasDate (p : DatePattern) : Bool :=
  p.hasToken Token.givesYear && p.hasToken Token.givesMonth && p.hasToken Token.givesDay

/-- Whether the pattern gives a minute and an hour of the day; an hour on the clock face needs its
half of the day. -/
def hasTime (p : DatePattern) : Bool :=
  p.hasToken Token.givesMinute && (p.hasToken Token.givesHour ||
    p.hasToken Token.givesClockHour && p.hasToken Token.givesMeridiem)

end DatePattern

end FormCheck

import FormCheck.Text.Hexadecimal

/-!
# TOML strings, keys and comments

Every function takes what a text starts with and returns the rest.

## Main definitions

* `Toml.takeBasic`, `Toml.takeLiteral`: strings on one line, after the opening quote.
* `Toml.takeMultilineBasic`, `Toml.takeMultilineLiteral`: strings on many lines, after the three
  opening quotes.
* `Toml.takeKey`, `Toml.takeKeyPath`: a key, and keys with dots between them.
* `Toml.skipTrivia`: blanks, new lines and comments.
* `Toml.takeEndOfLine`: what may stand at the end of a line.
-/

namespace FormCheck.Toml

/-- The characters that strings and comments may hold: no control but the tab. -/
def isTextChar (c : Char) : Bool := c == '\t' || 0x20 ≤ c.toNat && c.toNat != 0x7f

def isBlank (c : Char) : Bool := c == ' ' || c == '\t'

def dropBlanks (s : List Char) : List Char := s.dropWhile isBlank

/-- Takes one character. -/
def takeChar (c : Char) : List Char → Option (List Char)
  | d :: s => if d = c then some s else none
  | [] => none

/-- The rest after a line feed, which a carriage return may precede. -/
def dropNewline? : List Char → Option (List Char)
  | '\n' :: s => some s
  | '\r' :: '\n' :: s => some s
  | _ => none

theorem length_dropNewline?_le {s r : List Char} (h : dropNewline? s = some r) :
    r.length < s.length := by
  unfold dropNewline? at h
  split at h <;> simp only [Option.some.injEq, reduceCtorEq] at h <;> subst h <;>
    simp only [List.length_cons] <;> omega

/-! ## Escapes -/

/-- The character of a code point. -/
def charOf? (n : Nat) : Option Char := if n.isValidChar then some (.ofNat n) else none

/-- Takes a code point of exactly `width` hexadecimal digits. -/
def takeCodePoint (width : Nat) (s : List Char) : Option (Char × List Char) :=
  if (s.take width).length = width then do
    let n ← Text.hexNumber? (s.take width)
    let c ← charOf? n
    return (c, s.drop width)
  else none

/-- Takes an escape after its backslash. -/
def takeEscape : List Char → Option (Char × List Char)
  | 'b' :: s => some ('\x08', s)
  | 't' :: s => some ('\t', s)
  | 'n' :: s => some ('\n', s)
  | 'f' :: s => some ('\x0c', s)
  | 'r' :: s => some ('\r', s)
  | 'e' :: s => some ('\x1b', s)
  | '"' :: s => some ('"', s)
  | '\\' :: s => some ('\\', s)
  | 'x' :: s => takeCodePoint 2 s
  | 'u' :: s => takeCodePoint 4 s
  | 'U' :: s => takeCodePoint 8 s
  | _ => none

theorem length_takeCodePoint_le {width : Nat} {s r : List Char} {c : Char}
    (h : takeCodePoint width s = some (c, r)) : r.length ≤ s.length := by
  unfold takeCodePoint at h
  split at h
  · simp only [Option.bind_eq_bind, Option.pure_def, Option.bind_eq_some_iff,
      Option.some.injEq, Prod.mk.injEq] at h
    obtain ⟨_, _, _, _, _, rfl⟩ := h
    simp
  · simp at h

theorem length_takeEscape_le {s r : List Char} {c : Char} (h : takeEscape s = some (c, r)) :
    r.length ≤ s.length := by
  unfold takeEscape at h
  split at h <;> try (simp only [Option.some.injEq, Prod.mk.injEq] at h; simp [← h.2])
  · exact Nat.le_succ_of_le (length_takeCodePoint_le h)
  · exact Nat.le_succ_of_le (length_takeCodePoint_le h)
  · exact Nat.le_succ_of_le (length_takeCodePoint_le h)
  · simp at h

/-! ## Strings on one line -/

/-- Takes a basic string up to its closing quote. -/
def takeBasic (s : List Char) : Option (List Char × List Char) :=
  match s with
  | [] => none
  | '"' :: s => some ([], s)
  | '\\' :: s =>
    match h : takeEscape s with
    | none => none
    | some (c, r) =>
      have := length_takeEscape_le h
      (takeBasic r).map fun (t, rest) => (c :: t, rest)
  | c :: s =>
    if isTextChar c then (takeBasic s).map fun (t, rest) => (c :: t, rest) else none
termination_by s.length

/-- Takes a literal string up to its closing quote. -/
def takeLiteral : List Char → Option (List Char × List Char)
  | [] => none
  | '\x27' :: s => some ([], s)
  | c :: s => if isTextChar c then (takeLiteral s).map fun (t, rest) => (c :: t, rest) else none

/-! ## Strings on many lines -/

/-- The rest after blanks and new lines. -/
def dropLines : List Char → List Char
  | ' ' :: s => dropLines s
  | '\t' :: s => dropLines s
  | '\n' :: s => dropLines s
  | '\r' :: '\n' :: s => dropLines s
  | s => s

/-- The rest after the end of a line and the blank lines and blanks that follow, if a backslash
stood at the end of the line. -/
def dropJoint? (s : List Char) : Option (List Char) :=
  (dropNewline? (dropBlanks s)).map dropLines

theorem length_dropLines_le (s : List Char) : (dropLines s).length ≤ s.length := by
  fun_induction dropLines s <;> simp_all <;> omega

theorem length_dropJoint?_le {s r : List Char} (h : dropJoint? s = some r) :
    r.length ≤ s.length := by
  obtain ⟨t, ht, rfl⟩ := Option.map_eq_some_iff.mp h
  have h₁ := length_dropNewline?_le ht
  have h₂ := length_dropLines_le t
  have h₃ := (List.dropWhile_suffix isBlank (l := s)).length_le
  unfold dropBlanks at h₁
  omega

/-- Takes a basic string up to its three closing quotes, before which it may hold two more. -/
def takeMultilineBasic (s : List Char) : Option (List Char × List Char) :=
  match s with
  | [] => none
  | '"' :: '"' :: '"' :: '"' :: '"' :: s => some (['"', '"'], s)
  | '"' :: '"' :: '"' :: '"' :: s => some (['"'], s)
  | '"' :: '"' :: '"' :: s => some ([], s)
  | '\\' :: s =>
    match hj : dropJoint? s with
    | some r =>
      have := length_dropJoint?_le hj
      takeMultilineBasic r
    | none =>
      match h : takeEscape s with
      | none => none
      | some (c, r) =>
        have := length_takeEscape_le h
        (takeMultilineBasic r).map fun (t, rest) => (c :: t, rest)
  | '\r' :: '\n' :: s => (takeMultilineBasic s).map fun (t, rest) => ('\r' :: '\n' :: t, rest)
  | c :: s =>
    if isTextChar c || c == '\n' then (takeMultilineBasic s).map fun (t, rest) => (c :: t, rest)
    else none
termination_by s.length

/-- Takes a literal string up to its three closing quotes, before which it may hold two more. -/
def takeMultilineLiteral : List Char → Option (List Char × List Char)
  | [] => none
  | '\x27' :: '\x27' :: '\x27' :: '\x27' :: '\x27' :: s => some (['\x27', '\x27'], s)
  | '\x27' :: '\x27' :: '\x27' :: '\x27' :: s => some (['\x27'], s)
  | '\x27' :: '\x27' :: '\x27' :: s => some ([], s)
  | '\r' :: '\n' :: s => (takeMultilineLiteral s).map fun (t, rest) => ('\r' :: '\n' :: t, rest)
  | c :: s =>
    if isTextChar c || c == '\n' then (takeMultilineLiteral s).map fun (t, rest) => (c :: t, rest)
    else none

/-- A new line right after the opening quotes does not belong to the string. -/
def dropFirstNewline (s : List Char) : List Char := (dropNewline? s).getD s

/-- Takes a string of any of the four forms, if a text starts with one. -/
def takeString (s : List Char) : Option (List Char × List Char) :=
  match s with
  | '"' :: '"' :: '"' :: s => takeMultilineBasic (dropFirstNewline s)
  | '"' :: s => takeBasic s
  | '\x27' :: '\x27' :: '\x27' :: s => takeMultilineLiteral (dropFirstNewline s)
  | '\x27' :: s => takeLiteral s
  | _ => none

/-! ## Keys -/

/-- The characters that a key without quotes may hold. -/
def isBareChar (c : Char) : Bool := c.isAlphanum || c == '_' || c == '-'

/-- Takes a key: a string on one line or a bare key. -/
def takeKey (s : List Char) : Option (String × List Char) :=
  match s with
  | '"' :: '"' :: '"' :: _ => none
  | '"' :: s => (takeBasic s).map fun (t, rest) => (String.ofList t, rest)
  | '\x27' :: '\x27' :: '\x27' :: _ => none
  | '\x27' :: s => (takeLiteral s).map fun (t, rest) => (String.ofList t, rest)
  | s =>
    let bare := s.takeWhile isBareChar
    if bare.isEmpty then none else some (String.ofList bare, s.dropWhile isBareChar)

/-- Takes at most `limit` keys with dots between them, and the blanks around the keys. -/
def takeKeyPath : Nat → List Char → Option (List String × List Char)
  | 0, _ => none
  | limit + 1, s => do
    let (key, s) ← takeKey (dropBlanks s)
    match dropBlanks s with
    | '.' :: s => do
      let (keys, s) ← takeKeyPath limit s
      return (key :: keys, s)
    | s => return ([key], s)

/-! ## Between values -/

/-- Takes the rest of a comment, up to the end of the line. -/
def takeComment : List Char → Option (List Char)
  | [] => some []
  | '\n' :: s => some ('\n' :: s)
  | '\r' :: '\n' :: s => some ('\r' :: '\n' :: s)
  | c :: s => if isTextChar c then takeComment s else none

/-- Skips blanks, new lines and comments; `inComment` tells whether the text starts inside a
comment. -/
def skipTrivia (inComment : Bool) : List Char → Option (List Char)
  | [] => some []
  | '\n' :: s => skipTrivia false s
  | '\r' :: '\n' :: s => skipTrivia false s
  | c :: s =>
    if inComment then if isTextChar c then skipTrivia true s else none
    else if isBlank c then skipTrivia false s
    else if c = '#' then skipTrivia true s
    else some (c :: s)

/-- Takes blanks, a comment if there is one, and the new line, if the text does not end. -/
def takeEndOfLine (s : List Char) : Option (List Char) := do
  let s ← match dropBlanks s with
    | '#' :: s => takeComment s
    | s => some s
  if s.isEmpty then some [] else dropNewline? s

end FormCheck.Toml

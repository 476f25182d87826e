import FormCheck.Text.Interval

/-!
# Blank characters

The characters with the Unicode property `White_Space`.

## Main definitions

* `Text.isBlank`: the class.
* `Text.dropBlank`: a text without the blank characters it starts with.
-/

namespace FormCheck.Text

/-- The intervals of code points with the property `White_Space`. -/
def blankIntervals : List (Nat × Nat) :=
  [(0x9, 0xd), (0x20, 0x20), (0x85, 0x85), (0xa0, 0xa0), (0x1680, 0x1680), (0x2000, 0x200a),
   (0x2028, 0x2029), (0x202f, 0x202f), (0x205f, 0x205f), (0x3000, 0x3000)]

def isBlank (c : Char) : Bool := inIntervals blankIntervals c

def dropBlank (s : List Char) : List Char := s.dropWhile isBlank

@[simp] theorem dropBlank_nil : dropBlank [] = [] := rfl

theorem dropBlank_cons_of_blank {c : Char} {s : List Char} (h : isBlank c = true) :
    dropBlank (c :: s) = dropBlank s := by
  simp [dropBlank, h]

theorem dropBlank_cons_of_not_blank {c : Char} {s : List Char} (h : isBlank c = false) :
    dropBlank (c :: s) = c :: s := by
  simp [dropBlank, h]

end FormCheck.Text

import Mathlib.Data.List.Basic
import Mathlib.Order.Basic
import Mathlib.Tactic.SplitIfs

/-!
# Texts in the order of their bytes

Texts are compared by their code points. Comparing them by the bytes of their UTF-8 encoding makes
no difference.

## Main definitions

* `Text.bytes`: the bytes of a text.
* `Text.encodeWith`: the bytes of one code point, for a given number of bytes.
* `Text.encodingClass`: the mark of the first byte of a code point, and the number of bytes behind
  it.
* `Text.topBits`, `Text.firstByte`: what the first byte holds.

## Main results

* `Text.utf8EncodeChar_append_lt`: the bytes of the smaller character decide.
* `Text.bytes_lt_iff`: the two orders are the same.
-/

namespace FormCheck.Text

/-- The bytes of a text in UTF-8. -/
def bytes (s : String) : List UInt8 := s.toByteArray.data.toList

theorem bytes_eq_flatMap (s : String) : bytes s = s.toList.flatMap String.utf8EncodeChar := by
  rw [bytes, ← String.utf8Encode_toList, List.utf8Encode, List.toList_data_toByteArray]

/-! ## One character -/

/-- The bytes of a code point with `k` bytes behind the first one. Each of them takes six bits, and
the first one is marked by `lead`. -/
def encodeWith (lead : Nat) : Nat → Nat → List UInt8
  | 0, n => [UInt8.ofNat (n + lead)]
  | k + 1, n => encodeWith lead k (n / 64) ++ [UInt8.ofNat (n % 64 + 128)]

/-- The bits that are left for the first byte. -/
def topBits : Nat → Nat → Nat
  | 0, n => n
  | k + 1, n => topBits k (n / 64)

/-- The mark of the first byte of a code point and the number of bytes behind it. -/
def encodingClass (n : Nat) : Nat × Nat :=
  if n ≤ 0x7f then (0, 0)
  else if n ≤ 0x7ff then (0xc0, 1)
  else if n ≤ 0xffff then (0xe0, 2)
  else (0xf0, 3)

theorem ofNat_lt_ofNat {m n : Nat} (h : m < n) (hn : n < 256) : UInt8.ofNat m < UInt8.ofNat n := by
  rw [UInt8.lt_iff_toNat_lt, UInt8.toNat_ofNat', UInt8.toNat_ofNat']
  omega

theorem exists_encodeWith_eq_cons (lead k n : Nat) :
    ∃ rest, encodeWith lead k n = UInt8.ofNat (topBits k n + lead) :: rest := by
  induction k generalizing n with
  | zero => exact ⟨[], rfl⟩
  | succ k ih =>
    obtain ⟨rest, hrest⟩ := ih (n / 64)
    refine ⟨rest ++ [UInt8.ofNat (n % 64 + 128)], ?_⟩
    rw [encodeWith, hrest, topBits, List.cons_append]

/-- With the same number of bytes, the smaller code point has the smaller bytes. -/
theorem encodeWith_append_lt {lead k m n : Nat} (h : m < n) (hn : topBits k n + lead < 256)
    (s t : List UInt8) : encodeWith lead k m ++ s < encodeWith lead k n ++ t := by
  -- The last byte decides if the code points agree on all bits but its six.
  induction k generalizing m n s t with
  | zero =>
    have hlt : UInt8.ofNat (m + lead) < UInt8.ofNat (n + lead) := ofNat_lt_ofNat (by omega) hn
    exact List.cons_lt_cons_iff.mpr (.inl hlt)
  | succ k ih =>
    rw [encodeWith, encodeWith, List.append_assoc, List.append_assoc]
    have hle : m / 64 ≤ n / 64 := Nat.div_le_div_right (Nat.le_of_lt h)
    rcases Nat.lt_or_eq_of_le hle with hlt | heq
    · exact ih hlt hn _ _
    · have hlast : UInt8.ofNat (m % 64 + 128) < UInt8.ofNat (n % 64 + 128) :=
        ofNat_lt_ofNat (by omega) (by omega)
      rw [heq]
      exact List.append_left_lt (List.cons_lt_cons_iff.mpr (.inl hlast))

theorem toNat_lt (c : Char) : c.toNat < 0x110000 := by
  have h : c.toNat < 0xd800 ∨ 0xdfff < c.toNat ∧ c.toNat < 0x110000 := c.valid
  omega

theorem utf8EncodeChar_eq_encodeWith (c : Char) :
    String.utf8EncodeChar c =
      encodeWith (encodingClass c.toNat).1 (encodingClass c.toNat).2 c.toNat := by
  have hc := toNat_lt c
  rw [String.utf8EncodeChar.eq_def, encodingClass]
  show (if c.toNat ≤ 0x7f then _ else if c.toNat ≤ 0x7ff then _ else if c.toNat ≤ 0xffff then _
    else _) = _
  by_cases h₁ : c.toNat ≤ 0x7f
  · rw [if_pos h₁, if_pos h₁]
    rfl
  by_cases h₂ : c.toNat ≤ 0x7ff
  · have hlead : c.toNat / 64 % 32 = c.toNat / 64 := Nat.mod_eq_of_lt (by omega)
    simp [h₁, h₂, encodeWith, hlead]
  by_cases h₃ : c.toNat ≤ 0xffff
  · have hlead : c.toNat / 4096 % 16 = c.toNat / 4096 := Nat.mod_eq_of_lt (by omega)
    simp [h₁, h₂, h₃, encodeWith, Nat.div_div_eq_div_mul, hlead]
  · have hlead : c.toNat / 262144 % 8 = c.toNat / 262144 := Nat.mod_eq_of_lt (by omega)
    simp [h₁, h₂, h₃, encodeWith, Nat.div_div_eq_div_mul, hlead]

/-- The first byte of a code point, as a number. -/
def firstByte (n : Nat) : Nat := topBits (encodingClass n).2 n + (encodingClass n).1

theorem firstByte_lt {n : Nat} (h : n < 0x110000) : firstByte n < 256 := by
  unfold firstByte encodingClass
  split_ifs <;> simp only [topBits] <;> omega

theorem firstByte_lt_firstByte {m n : Nat} (h : m < n)
    (hclass : encodingClass m ≠ encodingClass n) : firstByte m < firstByte n := by
  unfold firstByte
  unfold encodingClass at *
  split_ifs at * <;> simp_all [topBits] <;> omega

theorem exists_utf8EncodeChar_eq_cons (c : Char) :
    ∃ rest, String.utf8EncodeChar c = UInt8.ofNat (firstByte c.toNat) :: rest := by
  rw [utf8EncodeChar_eq_encodeWith]
  exact exists_encodeWith_eq_cons _ _ _

/-- Characters with as many bytes are compared byte by byte. Of others, the smaller one has fewer
bytes and thus a smaller first byte. -/
theorem utf8EncodeChar_append_lt {c d : Char} (h : c < d) (s t : List UInt8) :
    String.utf8EncodeChar c ++ s < String.utf8EncodeChar d ++ t := by
  have hlt : c.toNat < d.toNat := h
  have hd : firstByte d.toNat < 256 := firstByte_lt (toNat_lt d)
  by_cases hclass : encodingClass c.toNat = encodingClass d.toNat
  · rw [utf8EncodeChar_eq_encodeWith, utf8EncodeChar_eq_encodeWith, hclass]
    exact encodeWith_append_lt hlt hd s t
  · obtain ⟨u, hu⟩ := exists_utf8EncodeChar_eq_cons c
    obtain ⟨v, hv⟩ := exists_utf8EncodeChar_eq_cons d
    have hfirst := ofNat_lt_ofNat (firstByte_lt_firstByte hlt hclass) hd
    rw [hu, hv]
    exact List.cons_lt_cons_iff.mpr (.inl hfirst)

/-! ## Texts -/

theorem flatMap_utf8EncodeChar_lt {a b : List Char} (h : a < b) :
    a.flatMap String.utf8EncodeChar < b.flatMap String.utf8EncodeChar := by
  induction a generalizing b with
  | nil =>
    cases b with
    | nil => exact absurd h (List.lt_irrefl [])
    | cons d b =>
      obtain ⟨x, xs, hx⟩ := List.exists_cons_of_ne_nil (String.utf8EncodeChar_ne_nil (c := d))
      rw [List.flatMap_nil, List.flatMap_cons, hx]
      exact List.nil_lt_cons x _
  | cons c a ih =>
    cases b with
    | nil => exact absurd h (List.not_lt_nil _)
    | cons d b =>
      rw [List.flatMap_cons, List.flatMap_cons]
      rcases List.cons_lt_cons_iff.mp h with hlt | ⟨rfl, hlt⟩
      · exact utf8EncodeChar_append_lt hlt _ _
      · exact List.append_left_lt (ih hlt)

/-- The order of the bytes is the order of the code points. -/
theorem bytes_lt_iff {a b : String} : bytes a < bytes b ↔ a < b := by
  have hlt : ∀ {a b : String}, a < b → bytes a < bytes b := by
    intro a b h
    rw [bytes_eq_flatMap, bytes_eq_flatMap]
    exact flatMap_utf8EncodeChar_lt h
  refine ⟨fun h => ?_, hlt⟩
  by_contra hab
  by_cases hba : b < a
  · exact List.lt_asymm h (hlt hba)
  · obtain rfl : a = b := String.le_antisymm (String.not_lt.mp hba) (String.not_lt.mp hab)
    exact List.lt_irrefl _ h

end FormCheck.Text

/-
The order of texts.

Texts are ordered by their characters, and characters by their numbers.  The bytes of texts are in
the same order: the first byte of a character tells how many follow, and more bytes come with a
greater first one.  So texts may be compared as they are written, without reading any characters:

* `exists_continuation` — a character is a first byte that tells how many follow, and the last
  digits of its number to base 64;
* `utf8EncodeChar_append_lt` — the bytes of the smaller character come first, whatever follows;
* `lt_iff_bytes_lt` — one text comes before another exactly if its bytes do.
-/
import ExamAdmission.Proofs.Text.Bytes
import Mathlib.Algebra.Group.Nat.Defs

namespace ExamAdmission

/-! ### Characters -/

/-- The last digits of a number to base 64, as the bytes that follow the first one of a
character. -/
def continuation (value : Nat) : Nat → List UInt8
  | 0 => []
  | k + 1 => UInt8.ofNat (value / 64 ^ k % 64 + 0x80) :: continuation value k

/-- What the first byte of a character adds to the digits in it, to tell how many bytes follow. -/
def leadMark : Nat → Nat
  | 0 => 0
  | 1 => 0xc0
  | 2 => 0xe0
  | _ => 0xf0

/-- A character is a first byte, with the first digits of its number, and as many more bytes as the
number needs. -/
theorem exists_continuation (c : Char) : ∃ k,
    String.utf8EncodeChar c =
      UInt8.ofNat (leadMark k + c.toNat / 64 ^ k) :: continuation c.toNat k ∧
    (k = 0 ∧ c.toNat < 0x80 ∨ k = 1 ∧ 0x80 ≤ c.toNat ∧ c.toNat < 0x800 ∨
      k = 2 ∧ 0x800 ≤ c.toNat ∧ c.toNat < 0x10000 ∨
      k = 3 ∧ 0x10000 ≤ c.toNat ∧ c.toNat < 0x110000) := by
  have valid : c.toNat < 0xd800 ∨ 0xdfff < c.toNat ∧ c.toNat < 0x110000 := c.valid
  have number : c.val.toNat = c.toNat := rfl
  simp only [String.utf8EncodeChar, number]
  -- the first byte is cut to its digits, of which there are no others
  split_ifs with one two three
  · exact ⟨0, by simp [leadMark, continuation], by omega⟩
  · have first : c.toNat / 64 % 32 + 0xc0 = leadMark 1 + c.toNat / 64 ^ 1 := by
      simp only [leadMark]
      omega
    exact ⟨1, by simp [first, continuation], by omega⟩
  · have first : c.toNat / 4096 % 16 + 0xe0 = leadMark 2 + c.toNat / 64 ^ 2 := by
      simp only [leadMark]
      omega
    exact ⟨2, by simp [first, continuation], by omega⟩
  · have first : c.toNat / 262144 % 8 + 0xf0 = leadMark 3 + c.toNat / 64 ^ 3 := by
      simp only [leadMark]
      omega
    exact ⟨3, by simp [first, continuation], by omega⟩

theorem ofNat_cons_lt {a b : Nat} (byte : b < 256) (less : a < b) (xs ys : List UInt8) :
    UInt8.ofNat a :: xs < UInt8.ofNat b :: ys := by
  refine List.cons_lt_cons_iff.mpr (Or.inl (UInt8.lt_iff_toNat_lt.mpr ?_))
  rwa [UInt8.toNat_ofNat', UInt8.toNat_ofNat', Nat.mod_eq_of_lt byte,
    Nat.mod_eq_of_lt (Nat.lt_trans less byte)]

/-- Of two numbers that agree in their first digits, the smaller one has the smaller last digits. -/
theorem continuation_append_lt {v w k : Nat} (less : v < w) (first : v / 64 ^ k = w / 64 ^ k)
    (xs ys : List UInt8) : continuation v k ++ xs < continuation w k ++ ys := by
  induction k with
  | zero =>
    rw [Nat.pow_zero, Nat.div_one, Nat.div_one] at first
    exact absurd first (Nat.ne_of_lt less)
  | succ k ih =>
    rw [continuation, continuation, List.cons_append, List.cons_append]
    have atMost := Nat.div_le_div_right (c := 64 ^ k) (Nat.le_of_lt less)
    rcases Nat.eq_or_lt_of_le atMost with digits | digits
    · rw [digits]
      exact List.cons_lt_cons_iff.mpr (Or.inr ⟨rfl, ih digits⟩)
    · rw [Nat.pow_succ, ← Nat.div_div_eq_div_mul, ← Nat.div_div_eq_div_mul] at first
      exact ofNat_cons_lt (by omega) (by omega) _ _

/-- The bytes of the smaller character come first, whatever follows. -/
theorem utf8EncodeChar_append_lt {c d : Char} (less : c < d) (xs ys : List UInt8) :
    String.utf8EncodeChar c ++ xs < String.utf8EncodeChar d ++ ys := by
  have smaller : c.toNat < d.toNat := less
  obtain ⟨k, bytesC, sizeC⟩ := exists_continuation c
  obtain ⟨l, bytesD, sizeD⟩ := exists_continuation d
  have byte : leadMark l + d.toNat / 64 ^ l < 256 := by
    rcases sizeD with ⟨rfl, _⟩ | ⟨rfl, _⟩ | ⟨rfl, _⟩ | ⟨rfl, _⟩ <;> simp only [leadMark] <;> omega
  -- more bytes come with a greater first one
  have first : leadMark k + c.toNat / 64 ^ k < leadMark l + d.toNat / 64 ^ l ∨
      k = l ∧ c.toNat / 64 ^ k = d.toNat / 64 ^ k := by
    rcases sizeC with ⟨rfl, _⟩ | ⟨rfl, _⟩ | ⟨rfl, _⟩ | ⟨rfl, _⟩ <;>
      rcases sizeD with ⟨rfl, _⟩ | ⟨rfl, _⟩ | ⟨rfl, _⟩ | ⟨rfl, _⟩ <;>
      simp [leadMark] <;> omega
  rw [bytesC, bytesD, List.cons_append, List.cons_append]
  rcases first with less | ⟨rfl, same⟩
  · exact ofNat_cons_lt byte less _ _
  · rw [same]
    exact List.cons_lt_cons_iff.mpr (Or.inr ⟨rfl, continuation_append_lt smaller same xs ys⟩)

/-! ### Texts -/

theorem flatMap_utf8EncodeChar_lt {s t : List Char} (less : s < t) :
    s.flatMap String.utf8EncodeChar < t.flatMap String.utf8EncodeChar := by
  induction less with
  | nil =>
    rename_i c t
    rw [List.flatMap_nil, List.flatMap_cons]
    obtain ⟨k, bytes, -⟩ := exists_continuation c
    rw [bytes, List.cons_append]
    exact List.nil_lt_cons _ _
  | rel less =>
    rw [List.flatMap_cons, List.flatMap_cons]
    exact utf8EncodeChar_append_lt less _ _
  | cons _ ih =>
    rw [List.flatMap_cons, List.flatMap_cons]
    exact List.append_left_lt ih

theorem bytes_lt {s t : String} (less : s < t) : s.toUTF8.toList < t.toUTF8.toList := by
  have bytes := flatMap_utf8EncodeChar_lt (String.lt_iff.mp less)
  rwa [← toList_toUTF8, ← toList_toUTF8, String.ofList_toList, String.ofList_toList] at bytes

/-- One text comes before another exactly if its bytes do. -/
theorem lt_iff_bytes_lt {s t : String} : s < t ↔ s.toUTF8.toList < t.toUTF8.toList := by
  refine ⟨bytes_lt, fun less => ?_⟩
  by_contra notLess
  rcases eq_or_ne s t with rfl | differ
  · exact List.lt_irrefl _ less
  · have greater : t < s := Decidable.byContradiction fun notGreater =>
      differ (String.le_antisymm notGreater notLess)
    exact List.lt_asymm less (bytes_lt greater)

end ExamAdmission

/-
Identifiers in the paths of requests.

An identifier is written into a path as one segment, with everything but ASCII letters and digits
escaped, so it holds none of the characters by which paths are taken apart.  Read the other way,
the path is split first and its segments are decoded then:

* `Path.segments_join` — segments without special characters are found again in their path;
* `Path.IsWrittenAs` — the segment writes the identifier, with escapes of either case;
* `Path.IsWrittenAs.decode?_eq` — every identifier is decoded from a segment that writes it;
* `Path.IsWrittenAs.isInner` — that segment holds no character that splits a path or ends it;
* `Path.isWrittenAs_encode` — the segment of an identifier writes it.
-/
import ExamAdmission.Http.Path
import ExamAdmission.Proofs.Text.Bytes
import Mathlib.Data.List.TakeWhile

namespace ExamAdmission.Path

/-! ### Segments -/

/-- A character that neither splits a path nor ends it. -/
def IsInner (c : Char) : Prop := c ≠ '/' ∧ c ≠ '?' ∧ c ≠ '#'

instance (c : Char) : Decidable (IsInner c) := inferInstanceAs (Decidable (_ ∧ _))

theorem all_isInner_iff {chars : List Char} :
    chars.all (IsInner ·) = true ↔ ∀ c ∈ chars, IsInner c := by simp

/-- The path with these segments. -/
def join (segments : List String) : String := "/".intercalate segments

theorem splitSlashes_eq (current rest : List Char) :
    splitSlashes current rest = List.splitOnPPrepend (· == '/') rest current := by
  induction rest generalizing current with
  | nil => rfl
  | cons c rest ih =>
    rw [splitSlashes, List.splitOnPPrepend_cons_eq_if, ih, ih, List.splitOnPPrepend_nil_right]
    simp only [beq_iff_eq]

theorem isInner_or_slash_of_mem_join {segments : List String}
    (inner : ∀ segment ∈ segments, ∀ c ∈ segment.toList, IsInner c) {c : Char}
    (mem : c ∈ (join segments).toList) : IsInner c ∨ c = '/' := by
  induction segments with
  | nil =>
    rw [join, String.intercalate_nil] at mem
    cases mem
  | cons segment segments ih =>
    have first := inner segment List.mem_cons_self
    have others := fun s hs => inner s (List.mem_cons_of_mem segment hs)
    by_cases last : segments = []
    · rw [last, join, String.intercalate_singleton] at mem
      exact Or.inl (first c mem)
    · rw [join, String.intercalate_cons_of_ne_nil last, String.toList_append, String.toList_append,
        List.mem_append, List.mem_append] at mem
      rcases mem with (mem | mem) | mem
      · exact Or.inl (first c mem)
      · exact Or.inr (List.mem_singleton.mp mem)
      · exact ih others mem

/-- **Segments are found again in their path**, as long as they hold no character that splits a
path or ends it. -/
theorem segments_join {parts : List String} (some_part : parts ≠ [])
    (inner : ∀ part ∈ parts, ∀ c ∈ part.toList, IsInner c) : segments (join parts) = parts := by
  have whole : (join parts).toList.takeWhile (fun c => c ≠ '?' ∧ c ≠ '#') =
      (join parts).toList := by
    refine List.takeWhile_eq_self_iff.mpr fun c mem => decide_eq_true ?_
    rcases isInner_or_slash_of_mem_join inner mem with h | rfl
    · exact h.2
    · decide
  have split : List.splitOn '/' (join parts).toList = parts.map String.toList := by
    rw [join, String.toList_intercalate]
    refine List.splitOn_intercalate '/' ?_ (mt List.map_eq_nil_iff.mp some_part)
    intro chars mem slash
    obtain ⟨part, hpart, rfl⟩ := List.mem_map.mp mem
    exact (inner part hpart '/' slash).1 rfl
  rw [segments, whole, splitSlashes_eq, List.splitOnPPrepend_nil_right,
    ← List.splitOn_eq_splitOnP, split, List.map_map]
  exact List.map_id'' (fun part => String.ofList_toList) parts

/-! ### Identifiers -/

theorem decodeBytes_cons_of_ne {c : Char} (other : c ≠ '%') (rest : List Char) :
    decodeBytes (c :: rest) = String.utf8EncodeChar c ++ decodeBytes rest := by
  rw [decodeBytes]
  intro high low rest' same
  exact absurd same other

/-- The two digits of a byte stand for it. -/
theorem byte?_digits : ∀ byte : UInt8,
    byte? (byte.toNat / 16).digitChar.toUpper (byte.toNat % 16).digitChar.toUpper = some byte :=
  forall_byte (by decide +kernel)

/-- An ASCII letter or digit is one byte. -/
theorem utf8EncodeChar_ofUInt8 : ∀ byte : UInt8, (Char.ofUInt8 byte).isAlphanum = true →
    String.utf8EncodeChar (Char.ofUInt8 byte) = [byte] :=
  forall_byte (by decide +kernel)

/-- The ways to write bytes into a segment: an ASCII letter or digit may stand for itself, and every
byte may be escaped, with hexadecimal digits of either case. -/
inductive Writes : List Char → List UInt8 → Prop
  | nil : Writes [] []
  | plain {byte : UInt8} {chars : List Char} {bytes : List UInt8}
      (alphanumeric : (Char.ofUInt8 byte).isAlphanum = true) (rest : Writes chars bytes) :
      Writes (Char.ofUInt8 byte :: chars) (byte :: bytes)
  | escaped {high low : Char} {byte : UInt8} {chars : List Char} {bytes : List UInt8}
      (digits : byte? high low = some byte) (rest : Writes chars bytes) :
      Writes ('%' :: high :: low :: chars) (byte :: bytes)

theorem isInner_of_hexDigit? {c : Char} {value : Nat}
    (digit : StringToken.hexDigit? c = some value) : IsInner c := by
  refine ⟨?_, ?_, ?_⟩ <;> (rintro rfl; exact nomatch digit)

/-- Only hexadecimal digits stand for a byte. -/
theorem isInner_of_byte? {high low : Char} {byte : UInt8} (digits : byte? high low = some byte) :
    IsInner high ∧ IsInner low := by
  rw [byte?, StringToken.hexValue?] at digits
  cases first : StringToken.hexDigit? high with
  | none => simp [first] at digits
  | some value =>
    cases second : StringToken.hexDigit? low with
    | none => simp [second] at digits
    | some value' => exact ⟨isInner_of_hexDigit? first, isInner_of_hexDigit? second⟩

namespace Writes

variable {chars : List Char} {bytes : List UInt8}

/-- What was written is read back. -/
theorem decodeBytes_eq (writes : Writes chars bytes) : decodeBytes chars = bytes := by
  induction writes with
  | nil => rfl
  | @plain byte chars bytes alphanumeric rest ih =>
    have other : Char.ofUInt8 byte ≠ '%' := by
      intro same
      rw [same] at alphanumeric
      exact absurd alphanumeric (by decide)
    rw [decodeBytes_cons_of_ne other, utf8EncodeChar_ofUInt8 byte alphanumeric, ih,
      List.singleton_append]
  | escaped digits rest ih =>
    rw [decodeBytes, digits]
    exact congrArg _ ih

/-- No letter, no digit and no escape holds a character that splits a path or ends it. -/
theorem isInner (writes : Writes chars bytes) : ∀ c ∈ chars, IsInner c := by
  induction writes with
  | nil => exact nofun
  | @plain byte chars bytes alphanumeric rest ih =>
    have inner : ∀ byte : UInt8, (Char.ofUInt8 byte).isAlphanum = true →
        IsInner (Char.ofUInt8 byte) := forall_byte (by decide +kernel)
    exact List.forall_mem_cons.mpr ⟨inner byte alphanumeric, ih⟩
  | escaped digits rest ih =>
    have ⟨high, low⟩ := isInner_of_byte? digits
    simp only [List.forall_mem_cons]
    exact ⟨by decide, high, low, ih⟩

/-- One byte more, as it is written into the segment of an identifier. -/
theorem encodeByte_append (byte : UInt8) (writes : Writes chars bytes) :
    Writes (encodeByte byte ++ chars) (byte :: bytes) := by
  unfold encodeByte
  dsimp only
  split
  · next alphanumeric => exact .plain alphanumeric writes
  · exact .escaped (byte?_digits byte) writes

end Writes

/-- The segment writes the identifier. -/
def IsWrittenAs (id segment : String) : Prop := Writes segment.toList id.toUTF8.toList

namespace IsWrittenAs

variable {id segment : String}

/-- **Every identifier is decoded from a segment that writes it**, whatever characters it has. -/
theorem decode?_eq (written : IsWrittenAs id segment) : decode? segment = some id := by
  rw [decode?, written.decodeBytes_eq, toList_bytes]
  exact dif_pos id.isValidUTF8

theorem isInner (written : IsWrittenAs id segment) : ∀ c ∈ segment.toList, IsInner c :=
  Writes.isInner written

/-- A segment writes one identifier only. -/
theorem unique {other : String} (written : IsWrittenAs id segment)
    (written' : IsWrittenAs other segment) : id = other :=
  Option.some.inj (written.decode?_eq.symm.trans written'.decode?_eq)

/-- An identifier that is not empty is not written as an empty segment. -/
theorem segment_ne_empty (written : IsWrittenAs id segment) (named : id ≠ "") : segment ≠ "" := by
  rintro rfl
  have empty : decode? "" = some "" := rfl
  exact named (Option.some.inj (written.decode?_eq.symm.trans empty))

end IsWrittenAs

theorem isWrittenAs_encode (id : String) : IsWrittenAs id (encode id) := by
  rw [IsWrittenAs, encode, String.toList_ofList]
  induction id.toUTF8.toList with
  | nil => exact .nil
  | cons byte bytes ih => exact ih.encodeByte_append byte

end ExamAdmission.Path

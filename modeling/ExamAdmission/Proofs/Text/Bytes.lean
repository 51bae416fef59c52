/-
Texts as bytes.

The bytes of a text are those of its characters, one after the other.  An ASCII character is the byte
of its number, and all bytes of any other character lie above:

* `toList_toUTF8` — the bytes of a text, character by character;
* `utf8EncodeChar_of_ascii`, `le_of_mem_utf8EncodeChar` — the bytes of one character;
* `fromUTF8?_toUTF8` — the bytes of a text are read as the text.
-/
import Mathlib.Data.List.Basic

namespace ExamAdmission

/-- What holds of the numbers below 256 as bytes holds of every byte. -/
theorem forall_byte {p : UInt8 → Prop} (all : ∀ n : Fin 256, p (UInt8.ofNat n.val)) (byte : UInt8) :
    p byte := by
  have this := all ⟨byte.toNat, byte.toNat_lt⟩
  rwa [UInt8.ofNat_toNat] at this

theorem toList_loop_bytes (bytes : ByteArray) (i : Nat) (taken : List UInt8) :
    ByteArray.toList.loop bytes i taken = taken.reverse ++ bytes.data.toList.drop i := by
  induction i, taken using ByteArray.toList.loop.induct bytes with
  | case1 i taken more ih =>
    have inData : i < bytes.data.toList.length := more
    have item : bytes.get! i = bytes.data.toList[i] := getElem!_pos bytes.data i more
    rw [ByteArray.toList.loop, if_pos more, ih, List.reverse_cons, List.append_assoc, item,
      List.singleton_append, List.getElem_cons_drop]
  | case2 i taken done =>
    have beyond : bytes.data.toList.length ≤ i := Nat.le_of_not_lt done
    rw [ByteArray.toList.loop, if_neg done, List.drop_eq_nil_of_le beyond, List.append_nil]

/-- Listing the bytes of an array loses none of them. -/
theorem toList_bytes (bytes : ByteArray) : bytes.toList = bytes.data.toList := by
  rw [ByteArray.toList, toList_loop_bytes, List.reverse_nil, List.nil_append, List.drop_zero]

/-- The bytes of a text are those of its characters, one after the other. -/
theorem toList_toUTF8 (chars : List Char) :
    (String.ofList chars).toUTF8.toList = chars.flatMap String.utf8EncodeChar := by
  rw [toList_bytes]
  exact List.toList_data_toByteArray

/-- An ASCII character is one byte. -/
theorem utf8EncodeChar_of_ascii {c : Char} (h : c.toNat < 128) :
    String.utf8EncodeChar c = [c.val.toUInt8] := by
  refine String.utf8EncodeChar_eq_singleton (Char.utf8Size_eq_one_iff.mpr ?_)
  rw [UInt32.le_iff_toNat_le]
  exact Nat.le_of_lt_succ h

/-- The byte of an ASCII character stands for the character. -/
theorem ofUInt8_of_ascii {c : Char} (h : c.toNat < 128) : Char.ofUInt8 c.val.toUInt8 = c := by
  refine Char.ext (UInt32.toNat_inj.mp ?_)
  have small : c.val.toNat < 256 := Nat.lt_trans h (by decide)
  show c.val.toUInt8.toUInt32.toNat = _
  rw [UInt32.toUInt32_toUInt8, UInt32.toNat_mod]
  exact Nat.mod_eq_of_lt small

/-- The bytes of any other character are no ASCII characters. -/
theorem le_of_mem_utf8EncodeChar {c : Char} (h : 128 ≤ c.toNat) {byte : UInt8}
    (mem : byte ∈ String.utf8EncodeChar c) : 128 ≤ byte := by
  have two : ∀ byte : UInt8, 128 ≤ byte ||| 0xc0 := forall_byte (by decide +kernel)
  have three : ∀ byte : UInt8, 128 ≤ byte ||| 0xe0 := forall_byte (by decide +kernel)
  have four : ∀ byte : UInt8, 128 ≤ byte ||| 0xf0 := forall_byte (by decide +kernel)
  have more : ∀ byte : UInt8, 128 ≤ byte ||| 0x80 := forall_byte (by decide +kernel)
  rcases c.utf8Size_eq with size | size | size | size
  · have low := UInt32.le_iff_toNat_le.mp (Char.utf8Size_eq_one_iff.mp size)
    have same : c.val.toNat = c.toNat := rfl
    have top : (127 : UInt32).toNat = 127 := rfl
    omega
  · rw [String.utf8EncodeChar_eq_cons_cons size] at mem
    simp only [List.mem_cons, List.not_mem_nil, or_false] at mem
    rcases mem with rfl | rfl
    · exact two _
    · exact more _
  · rw [String.utf8EncodeChar_eq_cons_cons_cons size] at mem
    simp only [List.mem_cons, List.not_mem_nil, or_false] at mem
    rcases mem with rfl | rfl | rfl
    · exact three _
    · exact more _
    · exact more _
  · rw [String.utf8EncodeChar_eq_cons_cons_cons_cons size] at mem
    simp only [List.mem_cons, List.not_mem_nil, or_false] at mem
    rcases mem with rfl | rfl | rfl | rfl
    · exact four _
    · exact more _
    · exact more _
    · exact more _

/-- The bytes of a text are read as the text. -/
theorem fromUTF8?_toUTF8 (s : String) :
    String.fromUTF8? ⟨(s.toList.flatMap String.utf8EncodeChar).toArray⟩ = some s := by
  have bytes := toList_toUTF8 s.toList
  rw [String.ofList_toList, toList_bytes] at bytes
  rw [← bytes]
  exact dif_pos s.isValidUTF8

end ExamAdmission

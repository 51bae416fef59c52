/-
Strings that were written are read.

Between its quotation marks a string is written character by character, and the bytes of each one,
escaped or not, add the bytes of the character to what has been read:

* `StringToken.steps_escapeChar` — one character;
* `StringToken.steps_escaped` — all characters of a string;
* `StringToken.step_quote` — **the closing mark completes the string that was written**.
-/
import ExamAdmission.Json.Value
import ExamAdmission.Json.StringToken
import ExamAdmission.Proofs.Text.Bytes

namespace ExamAdmission

/-- The bytes of characters in a row. -/
def charBytes (chars : List Char) : List UInt8 := chars.flatMap String.utf8EncodeChar

theorem charBytes_cons (c : Char) (chars : List Char) :
    charBytes (c :: chars) = String.utf8EncodeChar c ++ charBytes chars := List.flatMap_cons

theorem charBytes_append (chars more : List Char) :
    charBytes (chars ++ more) = charBytes chars ++ charBytes more := List.flatMap_append

namespace StringToken

/-- Takes bytes in a row, as long as the string goes on. -/
def steps (s : StringToken) : List UInt8 → Option StringToken
  | [] => some s
  | b :: bytes =>
    match s.step b with
    | .more next => next.steps bytes
    | _ => none

theorem steps_cons {s next : StringToken} {b : UInt8} (bytes : List UInt8)
    (h : s.step b = .more next) : s.steps (b :: bytes) = next.steps bytes := by
  rw [steps, h]

theorem steps_append {s next : StringToken} {bytes : List UInt8} (more : List UInt8)
    (h : s.steps bytes = some next) : s.steps (bytes ++ more) = next.steps more := by
  induction bytes generalizing s with
  | nil => exact congrArg (steps · more) (Option.some.inj h)
  | cons b bytes ih =>
    rw [steps] at h
    cases went : s.step b with
    | more state =>
      rw [went] at h
      rw [List.cons_append, steps_cons _ went, ih h]
    | done text =>
      rw [went] at h
      cases h
    | fault strict lenient =>
      rw [went] at h
      cases h

/-- Between two characters, when these bytes have been taken, the last one first. -/
def taken (bytes : List UInt8) : StringToken := ⟨.plain, .ok bytes, none⟩

variable {bytes : List UInt8}

/-- A byte that stands for itself. -/
def IsPlain (b : UInt8) : Prop := Char.ofUInt8 b ≠ '\\' ∧ Char.ofUInt8 b ≠ '"' ∧ ¬ b < 32

instance (b : UInt8) : Decidable (IsPlain b) := inferInstanceAs (Decidable (_ ∧ _))

theorem steps_plain {more : List UInt8} (plain : ∀ b ∈ more, IsPlain b) :
    (taken bytes).steps more = some (taken (more.reverse ++ bytes)) := by
  induction more generalizing bytes with
  | nil => rfl
  | cons b more ih =>
    obtain ⟨escape, quote, control⟩ := plain b List.mem_cons_self
    have went : (taken bytes).step b = .more (taken (b :: bytes)) := by
      show (if Char.ofUInt8 b = '\\' then _ else _) = _
      rw [if_neg escape, if_neg quote, if_neg control]
      rfl
    rw [steps_cons more went, ih fun d hd => plain d (List.mem_cons_of_mem b hd), List.reverse_cons,
      List.append_assoc, List.singleton_append]

/-- A control character is written by its number. -/
theorem steps_unit {n : Nat} (control : n < 32) :
    (taken bytes).steps
        (charBytes ['\\', 'u', '0', '0', (n / 16).digitChar, (n % 16).digitChar]) =
      some (taken ((String.utf8EncodeChar (Char.ofNat n)).reverse ++ bytes)) := by
  have high : ∀ n < 32, (n / 16).digitChar.toNat < 128 := by decide
  have low : ∀ n < 32, (n % 16).digitChar.toNat < 128 := by decide
  have value : ∀ n < 32,
      hexValue? ['0', '0', (n / 16).digitChar, (n % 16).digitChar] = some n := by decide
  have split : charBytes ['\\', 'u', '0', '0', (n / 16).digitChar, (n % 16).digitChar] =
      [92, 117, 48, 48] ++ ([(n / 16).digitChar.val.toUInt8] ++ [(n % 16).digitChar.val.toUInt8]) := by
    simp only [charBytes, List.flatMap_cons, List.flatMap_nil, utf8EncodeChar_of_ascii (high n control),
      utf8EncodeChar_of_ascii (low n control)]
    rfl
  have zeros : (taken bytes).steps [92, 117, 48, 48] = some ⟨.hex ['0', '0'], .ok bytes, none⟩ := rfl
  have first : (⟨.hex ['0', '0'], .ok bytes, none⟩ : StringToken).steps
      [(n / 16).digitChar.val.toUInt8] =
        some ⟨.hex ['0', '0', (n / 16).digitChar], .ok bytes, none⟩ := by
    have went : (⟨.hex ['0', '0'], .ok bytes, none⟩ : StringToken).step
        (n / 16).digitChar.val.toUInt8 =
          .more ⟨.hex ['0', '0', Char.ofUInt8 (n / 16).digitChar.val.toUInt8], .ok bytes, none⟩ := rfl
    rw [ofUInt8_of_ascii (high n control)] at went
    exact steps_cons [] went
  have second : (⟨.hex ['0', '0', (n / 16).digitChar], .ok bytes, none⟩ : StringToken).step
      (n % 16).digitChar.val.toUInt8 =
        .more (taken ((String.utf8EncodeChar (Char.ofNat n)).reverse ++ bytes)) := by
    rw [step, ofUInt8_of_ascii (low n control)]
    simp only [List.cons_append, List.nil_append, value n control]
    show TokenStep.more (if isFirstHalf n = true then _ else if isSecondHalf n = true then _ else _) = _
    rw [if_neg (by simp [isFirstHalf]; omega), if_neg (by simp [isSecondHalf]; omega)]
    rfl
  rw [split, steps_append _ zeros, steps_append _ first, steps_cons _ second]
  rfl

/-- **A written character adds its bytes.** -/
theorem steps_escapeChar (c : Char) :
    (taken bytes).steps (charBytes (Json.escapeChar c)) =
      some (taken ((String.utf8EncodeChar c).reverse ++ bytes)) := by
  have sameChar : ∀ {n : Nat}, c.toNat = n → c = Char.ofNat n := by
    rintro n rfl
    exact c.ofNat_toNat.symm
  unfold Json.escapeChar
  split
  · next h => subst h; rfl
  split
  · next h => subst h; rfl
  split
  · next h => subst h; rfl
  split
  · next h => subst h; rfl
  split
  · next h => subst h; rfl
  split
  · next h => rw [sameChar h]; rfl
  split
  · next h => rw [sameChar h]; rfl
  split
  · next control =>
    rw [steps_unit control, Char.ofNat_toNat]
  · next quote escape _ _ _ _ _ printed =>
    rw [charBytes, List.flatMap_singleton]
    refine steps_plain fun b mem => ?_
    by_cases ascii : c.toNat < 128
    · rw [utf8EncodeChar_of_ascii ascii] at mem
      obtain rfl := List.mem_singleton.mp mem
      rw [IsPlain, ofUInt8_of_ascii ascii]
      refine ⟨escape, quote, fun below => printed ?_⟩
      rw [UInt8.lt_iff_toNat_lt, UInt32.toNat_toUInt8] at below
      have number : c.val.toNat = c.toNat := rfl
      have top : (32 : UInt8).toNat = 32 := rfl
      omega
    · have high : ∀ b : UInt8, 128 ≤ b → IsPlain b := forall_byte (by decide +kernel)
      exact high b (le_of_mem_utf8EncodeChar (Nat.le_of_not_lt ascii) mem)

/-- All characters of a string add their bytes. -/
theorem steps_escaped (chars : List Char) :
    (taken bytes).steps (charBytes (chars.flatMap Json.escapeChar)) =
      some (taken ((charBytes chars).reverse ++ bytes)) := by
  induction chars generalizing bytes with
  | nil => rfl
  | cons c chars ih =>
    rw [List.flatMap_cons, charBytes_append, steps_append _ (steps_escapeChar c), ih, charBytes_cons,
      List.reverse_append, List.append_assoc]

/-- **The closing mark completes the string that was written.** -/
theorem step_quote (s : String) : (taken (charBytes s.toList).reverse).step 34 = .done (.ok s) := by
  have written : String.fromUTF8? ⟨(charBytes s.toList).reverse.reverse.toArray⟩ = some s := by
    rw [List.reverse_reverse, charBytes, fromUTF8?_toUTF8]
  show TokenStep.done (text (taken (charBytes s.toList).reverse)) = _
  rw [text]
  simp only [taken, Except.bind, written]

end StringToken

end ExamAdmission

/-
Positional notation as whole part and fraction.

The number that a row of digits says is `digitsValue`.  Positional notation is a whole part and a
fraction, and both rows together are the digits of the number:

* `Decimal.Positional` — a whole part and a fraction that stand for a decimal;
* `Decimal.exists_positional` — positional notation is made of such a pair.
-/
import ExamAdmission.Double.Text
import ExamAdmission.Proofs.Double.Digits

namespace ExamAdmission

/-! ### Digits -/

/-- All characters are digits. -/
def AllDigits (text : List Char) : Prop := ∀ c ∈ text, c.isDigit = true

instance (text : List Char) : Decidable (AllDigits text) :=
  inferInstanceAs (Decidable (∀ c ∈ text, c.isDigit = true))

/-- The number that a row of digits says. -/
def digitsValue (text : List Char) : Nat := Nat.ofDigitChars 10 text 0

namespace AllDigits

variable {text more : List Char}

theorem append (h : AllDigits text) (h' : AllDigits more) : AllDigits (text ++ more) := by
  intro c hc
  rcases List.mem_append.mp hc with hc | hc
  · exact h c hc
  · exact h' c hc

theorem take (h : AllDigits text) (n : Nat) : AllDigits (text.take n) :=
  fun c hc => h c (List.mem_of_mem_take hc)

theorem drop (h : AllDigits text) (n : Nat) : AllDigits (text.drop n) :=
  fun c hc => h c (List.mem_of_mem_drop hc)

theorem zeros (n : Nat) : AllDigits (List.replicate n '0') := by
  intro c hc
  rw [List.eq_of_mem_replicate hc]
  rfl

theorem toDigits (n : Nat) : AllDigits (Nat.toDigits 10 n) :=
  fun _ hc => Nat.isDigit_of_mem_toDigits (by omega) (by omega) hc

end AllDigits

theorem digitsValue_toDigits (n : Nat) : digitsValue (Nat.toDigits 10 n) = n :=
  Nat.ofDigitChars_ten_toDigits

theorem digitsValue_append (text more : List Char) :
    digitsValue (text ++ more) = Nat.ofDigitChars 10 more (digitsValue text) :=
  Nat.ofDigitChars_append 0

/-- Zeros in front say nothing. -/
theorem digitsValue_zeros_append (n : Nat) (text : List Char) :
    digitsValue (List.replicate n '0' ++ text) = digitsValue text := by
  rw [digitsValue_append, digitsValue, Nat.ofDigitChars_replicate_zero, mul_zero]
  rfl

theorem digitsValue_append_zeros (text : List Char) (n : Nat) :
    digitsValue (text ++ List.replicate n '0') = digitsValue text * 10 ^ n := by
  rw [digitsValue_append, Nat.ofDigitChars_replicate_zero, mul_comm]

/-- The digits of a number that is not zero do not start with a zero. -/
theorem head?_toDigits_ne_zero {n : Nat} (nonzero : n ≠ 0) :
    (Nat.toDigits 10 n).head? ≠ some '0' := by
  induction n using Nat.strongRecOn with
  | ind n ih =>
    by_cases small : n < 10
    · have digit : ∀ n < 10, n ≠ 0 → some n.digitChar ≠ some '0' := by decide
      rw [Nat.toDigits_of_lt_base small, List.head?_cons]
      exact digit n small nonzero
    · rw [Nat.toDigits_of_base_le (by omega) (by omega), List.head?_append_of_ne_nil]
      · exact ih (n / 10) (by omega) (by omega)
      · exact Nat.toDigits_ne_nil

/-! ### Whole part and fraction -/

namespace Decimal

variable (d : Decimal)

/-- The decimal as its digits in positional notation say it: without zeros left out at the end. -/
def plain : Decimal :=
  if 0 ≤ d.exponent then ⟨d.digits * 10 ^ d.exponent.toNat, 0⟩ else d

theorem toRat_plain : d.plain.toRat = d.toRat := by
  unfold plain
  split
  · next whole =>
    obtain ⟨e, he⟩ := Int.eq_ofNat_of_zero_le whole
    rw [toRat, toRat, he, Int.toNat_natCast]
    simp
  · rfl

/-- A whole part and a fraction that stand for the decimal. -/
structure Positional (whole fraction : List Char) : Prop where
  some_digit : whole ≠ []
  whole_digits : AllDigits whole
  fraction_digits : AllDigits fraction
  /-- A zero that leads is the whole part. -/
  leading : (d.digits = 0 → d.exponent = 0) → whole = ['0'] ∨ whole.head? ≠ some '0'
  value : (⟨digitsValue (whole ++ fraction), -(fraction.length : Int)⟩ : Decimal) = d.plain

theorem digitChars_ne_nil : d.digitChars ≠ [] := Nat.toDigits_ne_nil

theorem digitChars_length : ((d.digitChars.length : Nat) : Int) = d.wholeDigits - d.exponent := by
  rw [wholeDigits, digitChars]
  ring

theorem digitChars_of_eq_zero (h : d.digits = 0) : d.digitChars = ['0'] := by
  rw [digitChars, h]
  rfl

theorem positional_of_nonneg (whole : 0 ≤ d.exponent) :
    d.Positional (d.digitChars ++ List.replicate d.exponent.toNat '0') [] where
  some_digit := List.append_ne_nil_of_left_ne_nil d.digitChars_ne_nil _
  whole_digits := (AllDigits.toDigits _).append (.zeros _)
  fraction_digits := fun _ hc => absurd hc List.not_mem_nil
  leading := by
    intro zero
    by_cases none : d.digits = 0
    · left
      rw [d.digitChars_of_eq_zero none, zero none]
      rfl
    · right
      rw [List.head?_append_of_ne_nil _ d.digitChars_ne_nil]
      exact head?_toDigits_ne_zero none
  value := by
    rw [plain, if_pos whole, List.append_nil, digitsValue_append_zeros, digitChars,
      digitsValue_toDigits]
    rfl

theorem positional_of_pos (point : d.exponent < 0) (some_whole : 0 < d.wholeDigits) :
    d.Positional (d.digitChars.take d.wholeDigits.toNat)
      (d.digitChars.drop d.wholeDigits.toNat) where
  some_digit := by
    have some_char : 0 < d.digitChars.length := Nat.length_toDigits_pos
    intro none
    have length := congrArg List.length none
    rw [List.length_take, List.length_nil] at length
    omega
  whole_digits := (AllDigits.toDigits _).take _
  fraction_digits := (AllDigits.toDigits _).drop _
  leading := by
    intro zero
    have nonzero : d.digits ≠ 0 := fun none => absurd (zero none) point.ne
    right
    rw [List.head?_take, if_neg (by omega)]
    exact head?_toDigits_ne_zero nonzero
  value := by
    have length := d.digitChars_length
    have places : -(((d.digitChars.drop d.wholeDigits.toNat).length : Nat) : Int) = d.exponent := by
      rw [List.length_drop]
      omega
    rw [plain, if_neg (not_le.mpr point), List.take_append_drop, places, digitChars,
      digitsValue_toDigits]

theorem positional_of_nonpos (point : d.exponent < 0) (none_whole : d.wholeDigits ≤ 0) :
    d.Positional ['0'] (List.replicate (-d.wholeDigits).toNat '0' ++ d.digitChars) where
  some_digit := List.cons_ne_nil _ _
  whole_digits := AllDigits.zeros 1
  fraction_digits := (AllDigits.zeros _).append (.toDigits _)
  leading _ := Or.inl rfl
  value := by
    have length := d.digitChars_length
    have places : -(((List.replicate (-d.wholeDigits).toNat '0' ++ d.digitChars).length : Nat) : Int) =
        d.exponent := by
      rw [List.length_append, List.length_replicate]
      omega
    have digits : digitsValue (['0'] ++ (List.replicate (-d.wholeDigits).toNat '0' ++ d.digitChars)) =
        d.digits := by
      rw [show ['0'] = List.replicate 1 '0' from rfl, digitsValue_zeros_append,
        digitsValue_zeros_append, digitChars, digitsValue_toDigits]
    rw [plain, if_neg (not_le.mpr point), digits, places]

/-- Positional notation is a whole part and a fraction, with a point between them or the suffix of
whole numbers. -/
theorem exists_positional (wholeSuffix : List Char) :
    ∃ whole fraction, d.Positional whole fraction ∧
      d.positional wholeSuffix =
        whole ++ if fraction = [] then wholeSuffix else '.' :: fraction := by
  unfold positional
  dsimp only
  split
  · next nonneg => exact ⟨_, _, d.positional_of_nonneg nonneg, rfl⟩
  · next negative =>
    have length := d.digitChars_length
    split
    · next some_whole =>
      refine ⟨_, _, d.positional_of_pos (not_le.mp negative) some_whole, ?_⟩
      rw [if_neg]
      intro none
      have dropped := congrArg List.length none
      rw [List.length_drop, List.length_nil] at dropped
      omega
    · next none_whole =>
      refine ⟨_, _, d.positional_of_nonpos (not_le.mp negative) (not_lt.mp none_whole), ?_⟩
      rw [if_neg (List.append_ne_nil_of_right_ne_nil _ d.digitChars_ne_nil)]
      rfl

end Decimal

end ExamAdmission

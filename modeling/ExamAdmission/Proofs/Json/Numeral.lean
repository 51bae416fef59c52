/-
Numbers that were written are read.

A number is read one character at a time, and what has been read is kept as a significand, a scale
and an exponent.  On digits these say what the digits say, as long as they fit into 64 bits, and the
digits of a double always do:

* `Numeral.steps` — reading characters in a row; `Numeral.ofText?` — reading from the first one;
* `Numeral.StandsFor` — the significand, scale and exponent that were read are those of a decimal;
* `Numeral.steps_wire` — reading the notation of a decimal gives the decimal;
* `Numeral.ofText?_float`, `Numeral.ofText?_integer` — **a written number is read as it was**, a double
  if its digits are (`Numeral.readsBack`), as they are with correct rounding.
-/
import ExamAdmission.Json.Value
import ExamAdmission.Json.Numeral
import ExamAdmission.Proofs.Double.Notation

namespace ExamAdmission

/-! ### Digits in a row -/

namespace Numeral

/-- Before the first digit, behind the sign. -/
def start (negative : Bool) : Numeral := ⟨.sign, negative, 0, false, 0, false, 0⟩

variable (reading : Reading)

/-- Takes characters in a row, as long as the number goes on. -/
def steps (n : Numeral) : List Char → Option Numeral
  | [] => some n
  | c :: text =>
    match n.step reading c with
    | .more next => next.steps text
    | _ => none

/-- Takes a text from its first character on. -/
def ofText? : List Char → Option Numeral
  | [] => none
  | c :: text => (start? c).bind (·.steps reading text)

theorem steps_cons {n next : Numeral} {c : Char} (text : List Char)
    (h : n.step reading c = .more next) : n.steps reading (c :: text) = next.steps reading text := by
  rw [steps, h]

theorem steps_append {n next : Numeral} {text : List Char} (more : List Char)
    (h : n.steps reading text = some next) :
    n.steps reading (text ++ more) = next.steps reading more := by
  induction text generalizing n with
  | nil => exact congrArg (steps reading · more) (Option.some.inj h)
  | cons c text ih =>
    rw [steps] at h
    cases went : n.step reading c with
    | more state =>
      rw [went] at h
      rw [List.cons_append, steps_cons reading _ went, ih h]
    | done number =>
      rw [went] at h
      cases h
    | fault strict lenient =>
      rw [went] at h
      cases h

theorem digitOf_le {c : Char} (h : c.isDigit = true) : digitOf c ≤ 9 := by
  have high : c.toNat ≤ '9'.toNat := by
    simp only [Char.isDigit, Bool.and_eq_true, decide_eq_true_eq] at h
    exact h.2
  have nine : '9'.toNat = 57 := rfl
  rw [digitOf]
  omega

theorem le_ofDigitChars (text : List Char) (value : Nat) : value ≤ Nat.ofDigitChars 10 text value := by
  induction text generalizing value with
  | nil => exact le_rfl
  | cons c text ih =>
    rw [Nat.ofDigitChars_cons]
    refine le_trans ?_ (ih _)
    omega

theorem hasRoomFor_of_fits {n : Numeral} {c : Char} {text : List Char} (room : n.full = false)
    (fits : Nat.ofDigitChars 10 (c :: text) n.significand < 2 ^ 64) : n.hasRoomFor c = true := by
  have grows := le_ofDigitChars text (10 * n.significand + (c.toNat - '0'.toNat))
  rw [Nat.ofDigitChars_cons] at fits
  have digit : digitOf c = c.toNat - '0'.toNat := rfl
  rw [hasRoomFor, room, digit]
  simp only [Bool.not_false, Bool.true_and, decide_eq_true_eq]
  omega

variable {negative sign full : Bool} {value exponent : Nat} {scale : Int} {text : List Char}

/-- Digits before the point make the significand. -/
theorem steps_wholeDigits (digits : AllDigits text)
    (fits : Nat.ofDigitChars 10 text value < 2 ^ 64) :
    (⟨.whole, negative, value, false, 0, false, 0⟩ : Numeral).steps reading text =
      some ⟨.whole, negative, Nat.ofDigitChars 10 text value, false, 0, false, 0⟩ := by
  induction text generalizing value with
  | nil => rfl
  | cons c text ih =>
    have went : (⟨.whole, negative, value, false, 0, false, 0⟩ : Numeral).step reading c =
        .more ⟨.whole, negative, 10 * value + digitOf c, false, 0, false, 0⟩ := by
      show (if c.isDigit then TokenStep.more (pushWhole _ c) else _) = _
      rw [if_pos (digits c List.mem_cons_self), pushWhole, if_pos (hasRoomFor_of_fits rfl fits)]
    rw [Nat.ofDigitChars_cons] at fits ⊢
    rw [steps_cons reading text went]
    exact ih (fun d hd => digits d (List.mem_cons_of_mem c hd)) fits

/-- Digits behind the point make the significand too, and lower the scale. -/
theorem steps_fractionDigits (digits : AllDigits text)
    (fits : Nat.ofDigitChars 10 text value < 2 ^ 64) :
    (⟨.fraction, negative, value, false, scale, false, 0⟩ : Numeral).steps reading text =
      some ⟨.fraction, negative, Nat.ofDigitChars 10 text value, false, scale - text.length, false,
        0⟩ := by
  induction text generalizing value scale with
  | nil => simp [steps]
  | cons c text ih =>
    have went : (⟨.fraction, negative, value, false, scale, false, 0⟩ : Numeral).step reading c =
        .more ⟨.fraction, negative, 10 * value + digitOf c, false, scale - 1, false, 0⟩ := by
      show (if c.isDigit then TokenStep.more (pushFraction _ c) else _) = _
      rw [if_pos (digits c List.mem_cons_self), pushFraction, if_pos (hasRoomFor_of_fits rfl fits)]
    have places : scale - ((c :: text).length : Nat) = scale - 1 - text.length := by
      rw [List.length_cons]
      push_cast
      ring
    rw [Nat.ofDigitChars_cons] at fits ⊢
    rw [steps_cons reading text went, places]
    exact ih (fun d hd => digits d (List.mem_cons_of_mem c hd)) fits

theorem steps_exponentDigits (digits : AllDigits text) :
    (⟨.exponent, negative, value, full, scale, sign, exponent⟩ : Numeral).steps reading text =
      some ⟨.exponent, negative, value, full, scale, sign, Nat.ofDigitChars 10 text exponent⟩ := by
  induction text generalizing exponent with
  | nil => rfl
  | cons c text ih =>
    have went : (⟨.exponent, negative, value, full, scale, sign, exponent⟩ : Numeral).step reading c =
        .more ⟨.exponent, negative, value, full, scale, sign, 10 * exponent + digitOf c⟩ :=
      if_pos (digits c List.mem_cons_self)
    rw [steps_cons reading text went, Nat.ofDigitChars_cons]
    exact ih fun d hd => digits d (List.mem_cons_of_mem c hd)

/-! ### The parts of a number -/

/-- What has been read when the whole part is complete. -/
def IsWhole (n : Numeral) (negative : Bool) (value : Nat) : Prop :=
  n = ⟨.zero, negative, value, false, 0, false, 0⟩ ∨ n = ⟨.whole, negative, value, false, 0, false, 0⟩

/-- A digit other than zero starts the whole part. -/
theorem step_start {c : Char} (negative : Bool) (nonzero : c ≠ '0') (digit : c.isDigit = true) :
    (start negative).step reading c = .more ⟨.whole, negative, digitOf c, false, 0, false, 0⟩ := by
  have room : (start negative).hasRoomFor c = true := by
    have small := digitOf_le digit
    show (true && decide (10 * 0 + digitOf c < _)) = true
    rw [Bool.true_and, decide_eq_true_eq]
    omega
  show (if c = '0' then _ else needDigit c { pushWhole (start negative) c with part := _ }) = _
  rw [if_neg nonzero, needDigit, if_pos digit, pushWhole, if_pos room]
  show TokenStep.more (Numeral.mk _ _ (10 * 0 + digitOf c) _ _ _ _) = _
  rw [Nat.mul_zero, Nat.zero_add]
  rfl

/-- The whole part is read digit by digit; a zero that leads has to be all of it. -/
theorem steps_whole (negative : Bool) {whole : List Char} (some_digit : whole ≠ [])
    (digits : AllDigits whole) (leading : whole = ['0'] ∨ whole.head? ≠ some '0')
    (fits : digitsValue whole < 2 ^ 64) :
    ∃ n, (start negative).steps reading whole = some n ∧ n.IsWhole negative (digitsValue whole) := by
  obtain ⟨c, text, rfl⟩ := List.exists_cons_of_ne_nil some_digit
  by_cases zero : c = '0'
  · -- nothing follows
    rcases leading with all | other
    · rw [all]
      exact ⟨_, rfl, Or.inl rfl⟩
    · exact absurd (congrArg some zero) other
  · have went := step_start reading negative zero (digits c List.mem_cons_self)
    rw [digitsValue, Nat.ofDigitChars_cons, Nat.mul_zero, Nat.zero_add] at fits ⊢
    refine ⟨_, ?_, Or.inr rfl⟩
    rw [steps_cons reading text went]
    exact steps_wholeDigits reading (fun d hd => digits d (List.mem_cons_of_mem c hd)) fits

/-- A point and digits behind it. -/
theorem steps_fraction {n : Numeral} {fraction : List Char} (whole : n.IsWhole negative value)
    (some_digit : fraction ≠ []) (digits : AllDigits fraction)
    (fits : Nat.ofDigitChars 10 fraction value < 2 ^ 64) :
    n.steps reading ('.' :: fraction) =
      some ⟨.fraction, negative, Nat.ofDigitChars 10 fraction value, false, -fraction.length, false,
        0⟩ := by
  obtain ⟨c, text, rfl⟩ := List.exists_cons_of_ne_nil some_digit
  have point : n.step reading '.' = .more ⟨.point, negative, value, false, 0, false, 0⟩ := by
    rcases whole with rfl | rfl
    · rfl
    · rfl
  have first : (⟨.point, negative, value, false, 0, false, 0⟩ : Numeral).step reading c =
      .more ⟨.fraction, negative, 10 * value + digitOf c, false, 0 - 1, false, 0⟩ := by
    show needDigit c { pushFraction _ c with part := _ } = _
    rw [needDigit, if_pos (digits c List.mem_cons_self), pushFraction,
      if_pos (hasRoomFor_of_fits rfl fits)]
  have places : -((c :: text).length : Int) = 0 - 1 - text.length := by
    rw [List.length_cons]
    push_cast
    ring
  rw [Nat.ofDigitChars_cons] at fits ⊢
  rw [steps_cons reading _ point, steps_cons reading text first, places]
  exact steps_fractionDigits reading (fun d hd => digits d (List.mem_cons_of_mem c hd)) fits

/-- Behind the sign of an exponent, all its digits. -/
theorem steps_markSign (k : Nat) :
    (⟨.markSign, negative, value, full, scale, sign, 0⟩ : Numeral).steps reading
        (Nat.toDigits 10 k) =
      some ⟨.exponent, negative, value, full, scale, sign, k⟩ := by
  have digits := AllDigits.toDigits k
  have stands := digitsValue_toDigits k
  obtain ⟨c, text, split⟩ := List.exists_cons_of_ne_nil
    (Nat.toDigits_ne_nil : Nat.toDigits 10 k ≠ [])
  rw [split] at digits stands ⊢
  have first : (⟨.markSign, negative, value, full, scale, sign, 0⟩ : Numeral).step reading c =
      .more ⟨.exponent, negative, value, full, scale, sign, digitOf c⟩ :=
    if_pos (digits c List.mem_cons_self)
  rw [digitsValue, Nat.ofDigitChars_cons, Nat.mul_zero, Nat.zero_add] at stands
  rw [steps_cons reading text first,
    steps_exponentDigits reading fun d hd => digits d (List.mem_cons_of_mem c hd)]
  exact congrArg (fun e => some (Numeral.mk _ negative value full scale sign e)) stands

/-- The exponent of a number in scientific notation, with its sign. -/
def exponentText (place : Int) : List Char :=
  if 0 ≤ place then '+' :: Nat.toDigits 10 place.toNat else '-' :: Nat.toDigits 10 (-place).toNat

/-- The sign and the size of an exponent make it. -/
theorem signed_natAbs (place : Int) :
    (if decide (place < 0) then -(place.natAbs : Int) else place.natAbs) = place := by
  by_cases below : place < 0
  · rw [decide_eq_true below, if_pos rfl]
    omega
  · rw [decide_eq_false below, if_neg Bool.false_ne_true]
    omega

theorem steps_exponent {n : Numeral} (place : Int)
    (mark : n.step reading 'e' = .more ⟨.mark, negative, value, full, scale, false, 0⟩) :
    n.steps reading ('e' :: exponentText place) =
      some ⟨.exponent, negative, value, full, scale, decide (place < 0), place.natAbs⟩ := by
  rw [steps_cons reading _ mark, exponentText]
  split
  · next nonneg =>
    have plus : (⟨.mark, negative, value, full, scale, false, 0⟩ : Numeral).step reading '+' =
        .more ⟨.markSign, negative, value, full, scale, false, 0⟩ := rfl
    rw [steps_cons reading _ plus, steps_markSign, decide_eq_false (not_lt.mpr nonneg),
      show place.toNat = place.natAbs by omega]
  · next below =>
    have minus : (⟨.mark, negative, value, full, scale, false, 0⟩ : Numeral).step reading '-' =
        .more ⟨.markSign, negative, value, full, scale, true, 0⟩ := rfl
    rw [steps_cons reading _ minus, steps_markSign, decide_eq_true (not_le.mp below),
      show (-place).toNat = place.natAbs by omega]

end Numeral

/-! ### The notation of data -/

namespace Decimal

variable (d : Decimal)

/-- The decimal as its notation in data states it: whole numbers have one more digit, a zero behind the
point. -/
def noted : Decimal :=
  if (-4 ≤ d.wholeDigits ∧ d.wholeDigits ≤ 16) ∧ 0 ≤ d.exponent then ⟨d.plain.digits * 10, -1⟩ else d

theorem plain_of_neg (h : d.exponent < 0) : d.plain = d := if_neg (not_le.mpr h)

theorem plain_exponent_of_nonneg (h : 0 ≤ d.exponent) : d.plain.exponent = 0 := by
  rw [plain, if_pos h]

theorem toRat_noted : d.noted.toRat = d.toRat := by
  unfold noted
  split
  · next whole =>
    rw [← d.toRat_plain, toRat, toRat, d.plain_exponent_of_nonneg whole.2]
    rw [zpow_zero, zpow_neg_one]
    push_cast
    ring
  · rfl

theorem plain_digits_lt (small : d.digits < 10 ^ 17) (short : d.wholeDigits ≤ 16) :
    d.plain.digits < 10 ^ 17 := by
  by_cases whole : 0 ≤ d.exponent
  · by_cases zero : d.digits = 0
    · rw [plain, if_pos whole, zero, Nat.zero_mul]
      exact Nat.pow_pos (by omega)
    · -- the digits before the point are all there are
      have high := (wholeDigits_spec zero).2
      rw [← d.toRat_plain, toRat, d.plain_exponent_of_nonneg whole, zpow_zero, mul_one] at high
      have bound : (d.plain.digits : Rat) < (10 ^ 17 : Nat) := by
        refine high.trans_le ?_
        rw [Nat.cast_pow, ← zpow_natCast]
        exact ten_zpow_le_iff.mpr (by omega)
      exact_mod_cast bound
  · rw [d.plain_of_neg (not_le.mp whole)]
    exact small

end Decimal

namespace Numeral

variable (reading : Reading)

/-- What has been read are the digits and the exponent of a decimal. -/
structure StandsFor (n : Numeral) (negative : Bool) (d : Decimal) : Prop where
  part : n.part = .fraction ∨ n.part = .exponent
  negative_eq : n.negative = negative
  digits : n.significand = d.digits
  exponent : n.scale + (if n.negativeExponent then -(n.exponent : Int) else n.exponent) = d.exponent

section Notation

variable {d : Decimal} (negative : Bool)

theorem steps_positional (small : d.digits < 10 ^ 17) (zero : d.digits = 0 → d.exponent = 0)
    (low : -4 ≤ d.wholeDigits) (high : d.wholeDigits ≤ 16) :
    ∃ n, (start negative).steps reading (d.positional ['.', '0']) = some n ∧
      n.StandsFor negative d.noted := by
  obtain ⟨whole, fraction, parts, text⟩ := d.exists_positional ['.', '0']
  have fits := d.plain_digits_lt small high
  have value := congrArg Decimal.digits parts.value
  have places := congrArg Decimal.exponent parts.value
  simp only at value places
  have leading := parts.leading zero
  have grows := le_ofDigitChars fraction (digitsValue whole)
  have both := digitsValue_append whole fraction
  obtain ⟨n, read, isWhole⟩ := steps_whole reading negative parts.some_digit parts.whole_digits
    leading (by omega)
  rw [text]
  by_cases none : fraction = []
  · -- a zero is written behind the point
    subst none
    have nonneg : 0 ≤ d.exponent := by
      by_contra point
      rw [d.plain_of_neg (not_le.mp point)] at places
      simp at places
      omega
    rw [List.append_nil] at value
    have zeros : AllDigits ['0'] := AllDigits.zeros 1
    have more : Nat.ofDigitChars 10 ['0'] (digitsValue whole) = digitsValue whole * 10 := by
      rw [Nat.ofDigitChars_cons, Nat.ofDigitChars_nil, show '0'.toNat - '0'.toNat = 0 from rfl]
      omega
    rw [if_pos rfl]
    refine ⟨_, (steps_append reading _ read).trans
      (steps_fraction reading isWhole (List.cons_ne_nil _ _) zeros (by omega)), ?_⟩
    rw [Decimal.noted, if_pos ⟨⟨low, high⟩, nonneg⟩]
    exact ⟨Or.inl rfl, rfl, more.trans (by rw [value]), rfl⟩
  · have point : d.exponent < 0 := by
      by_contra nonneg
      rw [d.plain_exponent_of_nonneg (not_lt.mp nonneg)] at places
      have some_place := List.length_pos_of_ne_nil none
      omega
    rw [if_neg none]
    refine ⟨_, (steps_append reading _ read).trans
      (steps_fraction reading isWhole none parts.fraction_digits (by omega)), ?_⟩
    rw [Decimal.noted, if_neg fun h => absurd h.2 (not_le.mpr point)]
    rw [d.plain_of_neg point] at value places
    exact ⟨Or.inl rfl, rfl, both.symm.trans value, (add_zero _).trans places⟩

theorem steps_scientific (small : d.digits < 10 ^ 17) (nonzero : d.digits ≠ 0) :
    ∃ n, (start negative).steps reading d.scientific = some n ∧ n.StandsFor negative d := by
  have digits : AllDigits d.digitChars := AllDigits.toDigits _
  have value : digitsValue d.digitChars = d.digits := digitsValue_toDigits _
  have head : d.digitChars.head? ≠ some '0' := head?_toDigits_ne_zero nonzero
  have length := d.digitChars_length
  obtain ⟨first, others, split⟩ := List.exists_cons_of_ne_nil d.digitChars_ne_nil
  rw [split] at digits value head length
  have grows := le_ofDigitChars others (digitsValue [first])
  have both : digitsValue (first :: others) = Nat.ofDigitChars 10 others (digitsValue [first]) :=
    digitsValue_append [first] others
  have firstDigit : AllDigits [first] := fun c hc =>
    digits c (List.mem_singleton.mp hc ▸ List.mem_cons_self)
  obtain ⟨n, read, isWhole⟩ := steps_whole reading negative (List.cons_ne_nil first [])
    firstDigit (Or.inr head) (by omega)
  unfold Decimal.scientific
  rw [split]
  cases others with
  | nil =>
    have mark : n.step reading 'e' =
        .more ⟨.mark, negative, digitsValue [first], false, 0, false, 0⟩ := by
      rcases isWhole with rfl | rfl
      · rfl
      · rfl
    refine ⟨_, (steps_append reading ('e' :: exponentText (d.wholeDigits - 1)) read).trans
      (steps_exponent reading _ mark), Or.inr rfl, rfl, value, ?_⟩
    rw [List.length_singleton] at length
    dsimp only
    rw [signed_natAbs]
    push_cast at length
    omega
  | cons second others =>
    have behind : AllDigits (second :: others) := fun c hc => digits c (List.mem_cons_of_mem _ hc)
    have fraction := steps_fraction reading isWhole (List.cons_ne_nil second others) behind (by omega)
    have mark : ∀ (k : Nat) (scale : Int),
        (⟨.fraction, negative, k, false, scale, false, 0⟩ : Numeral).step reading 'e' =
          .more ⟨.mark, negative, k, false, scale, false, 0⟩ := fun _ _ => rfl
    have all := (steps_append reading ('.' :: (second :: others) ++
      'e' :: exponentText (d.wholeDigits - 1)) read).trans
        ((steps_append reading _ fraction).trans (steps_exponent reading _ (mark _ _)))
    refine ⟨_, all, Or.inr rfl, rfl, both.symm.trans value, ?_⟩
    rw [List.length_cons] at length
    dsimp only
    rw [signed_natAbs]
    push_cast at length ⊢
    omega

/-- **Reading the notation of a decimal gives the decimal.** -/
theorem steps_wire (small : d.digits < 10 ^ 17) (zero : d.digits = 0 → d.exponent = 0) :
    ∃ n, (start negative).steps reading d.wire = some n ∧ n.StandsFor negative d.noted := by
  unfold Decimal.wire
  split
  · next near => exact steps_positional reading negative small zero near.1 near.2
  · next far =>
    have nonzero : d.digits ≠ 0 := by
      intro none
      refine far ?_
      rw [Decimal.wholeDigits, none, zero none]
      decide
    rw [Decimal.noted, if_neg fun h => far h.1]
    exact steps_scientific reading negative small nonzero

end Notation

/-! ### The end of a number -/

/-- No digit is missing. -/
def IsComplete (n : Numeral) : Prop :=
  n.part = .zero ∨ n.part = .whole ∨ n.part = .fraction ∨ n.part = .exponent

theorem finish_of_isComplete {n : Numeral} (h : n.IsComplete) :
    n.finish reading = .done (n.value reading) := by
  rcases h with part | part | part | part
  all_goals rw [finish, part]

/-- A complete number ends before a character that does not continue it. -/
theorem step_of_isComplete {n : Numeral} {c : Char} (h : n.IsComplete) (digit : c.isDigit = false)
    (point : c ≠ '.') (mark : ¬ (c = 'e' ∨ c = 'E')) :
    n.step reading c = .done (n.value reading) := by
  have digit' : ¬ c.isDigit = true := by rw [digit]; exact Bool.false_ne_true
  have after : n.afterWhole reading c = .done (n.value reading) := by
    rw [afterWhole, if_neg point, if_neg mark]
  rcases h with part | part | part | part
  · rw [step, part]
    exact (if_neg digit').trans after
  · rw [step, part]
    exact (if_neg digit').trans after
  · rw [step, part]
    exact (if_neg digit').trans (if_neg mark)
  · rw [step, part]
    exact if_neg digit'

theorem ofText?_withSign {negative : Bool} {text : List Char} {n : Numeral}
    (read : (start negative).steps reading text = some n) (complete : n.IsComplete) :
    ofText? reading (Double.withSign negative text) = some n := by
  cases text with
  | nil =>
    obtain rfl := Option.some.inj read
    rcases complete with part | part | part | part
    all_goals cases part
  | cons c text =>
    cases negative with
    | true => exact read
    | false =>
      show (start? c).bind (·.steps reading text) = some n
      have not_minus : c ≠ '-' := by
        rintro rfl
        cases read
      rw [steps] at read
      rw [start?, if_neg not_minus]
      by_cases zero : c = '0'
      · subst zero
        exact read
      · by_cases digit : c.isDigit = true
        · rw [step_start reading false zero digit] at read
          rw [if_neg zero, if_pos digit]
          exact read
        · have stopped : (start false).step reading c = .fault .invalidNumber .invalidNumber := by
            show (if c = '0' then _ else needDigit c _) = _
            rw [if_neg zero, needDigit, if_neg digit]
          rw [stopped] at read
          cases read

/-! ### Written numbers -/

/-- A double that is read, by its digits in data, as it was written. -/
def readsBack : Double → Bool
  | .finite _ m =>
    reading (m.shortest .even).noted.digits (m.shortest .even).noted.exponent = .finite false m
  | _ => false

theorem isFinite_of_readsBack {x : Double} (h : readsBack reading x = true) : x.isFinite = true := by
  cases x with
  | nan => cases h
  | infinity negative => cases h
  | finite negative m => rfl

/-- The double nearest to the digits, whatever that costs. -/
def nearest : Reading := fun digits exponent => (Decimal.mk digits exponent).toDouble false

/-- Digits are read as the double nearest to them. -/
def IsNearest : Prop := ∀ digits exponent, reading digits exponent = nearest digits exponent

/-- **With correct rounding every finite double is read as it was written.** -/
theorem readsBack_of_isNearest (isNearest : IsNearest reading) {x : Double} (h : x.isFinite = true) :
    readsBack reading x = true := by
  obtain ⟨negative, m, rfl⟩ := Double.exists_of_isFinite h
  refine decide_eq_true ?_
  rw [isNearest]
  exact (Decimal.toDouble_congr false (m.shortest .even).toRat_noted).trans
    (m.toDouble_shortest .even false)

theorem StandsFor.isComplete {n : Numeral} {negative : Bool} {d : Decimal}
    (h : n.StandsFor negative d) : n.IsComplete := by
  rcases h.part with part | part
  · exact Or.inr (Or.inr (Or.inl part))
  · exact Or.inr (Or.inr (Or.inr part))

theorem StandsFor.value_eq {n : Numeral} {negative : Bool} {d : Decimal} {m : Magnitude}
    (h : n.StandsFor negative d) (back : reading d.digits d.exponent = .finite false m) :
    n.value reading = .float (.finite negative m) := by
  have double : n.toDouble reading = .finite negative m := by
    rw [toDouble, h.digits, h.exponent, h.negative_eq, back]
    cases negative with
    | false => rfl
    | true => rfl
  have behind : ¬ ((n.part = .zero ∨ n.part = .whole) ∧ (!n.full) = true) := by
    rintro ⟨whole, -⟩
    rcases h.part with part | part
    · rw [part] at whole
      rcases whole with other | other
      all_goals cases other
    · rw [part] at whole
      rcases whole with other | other
      all_goals cases other
  rw [value, if_neg behind, double]
  rfl

/-- **A written double is read as it was**, if its digits are. -/
theorem ofText?_float {x : Double} (h : readsBack reading x = true) :
    ∃ n, ofText? reading (Json.writeScalar (.float x)) = some n ∧ n.IsComplete ∧
      n.value reading = .float x := by
  obtain ⟨negative, m, rfl⟩ := Double.exists_of_isFinite (isFinite_of_readsBack reading h)
  have small := m.shortest_digits_lt .even
  obtain ⟨n, read, stands⟩ := steps_wire reading negative small (m.shortest_exponent_of_zero .even)
  exact ⟨n, ofText?_withSign reading read stands.isComplete, stands.isComplete,
    stands.value_eq reading (of_decide_eq_true h)⟩

theorem writeInteger_eq (v : Int) :
    Json.writeInteger v = Double.withSign (decide (v < 0)) (Nat.toDigits 10 v.natAbs) := by
  unfold Json.writeInteger Double.withSign
  split
  · next below => rw [if_pos (decide_eq_true below)]
  · next above => rw [if_neg (by simpa using above)]

theorem value_of_isWhole {n : Numeral} {v : Int} (h : n.IsWhole (decide (v < 0)) v.natAbs)
    (low : -2 ^ 63 ≤ v) : n.value reading = .integer v := by
  have part : (n.part = .zero ∨ n.part = .whole) ∧ (!n.full) = true := by
    rcases h with rfl | rfl
    · exact ⟨Or.inl rfl, rfl⟩
    · exact ⟨Or.inr rfl, rfl⟩
  have digits : n.significand = v.natAbs := by rcases h with rfl | rfl <;> rfl
  have sign : n.negative = decide (v < 0) := by rcases h with rfl | rfl <;> rfl
  rw [value, if_pos part, digits, sign]
  by_cases below : v < 0
  · have range : 0 < v.natAbs ∧ v.natAbs ≤ 9223372036854775808 := by omega
    rw [decide_eq_true below, Bool.not_true, if_neg Bool.false_ne_true, if_pos range,
      show -(v.natAbs : Int) = v by omega]
  · rw [decide_eq_false below, Bool.not_false, if_pos rfl, show (v.natAbs : Int) = v by omega]

/-- **A written integer is read as it was**, if it has at most 64 bits. -/
theorem ofText?_integer {v : Int} (low : -2 ^ 63 ≤ v) (high : v < 2 ^ 64) :
    ∃ n, ofText? reading (Json.writeInteger v) = some n ∧ n.IsComplete ∧
      n.value reading = .integer v := by
  have stands := digitsValue_toDigits v.natAbs
  have leading : Nat.toDigits 10 v.natAbs = ['0'] ∨ (Nat.toDigits 10 v.natAbs).head? ≠ some '0' := by
    by_cases zero : v.natAbs = 0
    · left
      rw [zero]
      rfl
    · exact Or.inr (head?_toDigits_ne_zero zero)
  obtain ⟨n, read, whole⟩ := steps_whole reading (decide (v < 0)) Nat.toDigits_ne_nil
    (AllDigits.toDigits _) leading (by rw [stands]; omega)
  rw [stands] at whole
  have complete : n.IsComplete := by
    rcases whole with rfl | rfl
    · exact Or.inl rfl
    · exact Or.inr (Or.inl rfl)
  refine ⟨n, ?_, complete, value_of_isWhole reading whole low⟩
  rw [writeInteger_eq]
  exact ofText?_withSign reading read complete

end Numeral

end ExamAdmission

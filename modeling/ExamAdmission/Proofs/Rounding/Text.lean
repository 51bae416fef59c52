/-
Rounding to decimal places, done on texts.

Moving the decimal point of a double is writing it, putting an exponent behind its digits, and
reading the whole again.  Here that is done literally, and fails where a text cannot be read:

* `Double.parse?` — what is read for a text in the standard notation of doubles;
* `Double.parse_withExponent` — **what was written is always read**, and moves the point;
* `Double.roundText_eq` — so rounding the text never fails, and is rounding the written digits;
* `Rounding.mono_on_texts` — **every rounding keeps the order**, by way of the texts.
-/
import ExamAdmission.Json.Value
import ExamAdmission.Proofs.Double.Notation
import ExamAdmission.Proofs.Rounding.Monotone

namespace ExamAdmission

/-! ### Reading a text -/

/-- Splits a sign off; it is negative behind a minus. -/
def splitSign : List Char → Bool × List Char
  | '-' :: text => (true, text)
  | '+' :: text => (false, text)
  | text => (false, text)

namespace Decimal

/-- What stands behind the digits of a number: nothing, or a mark and an exponent. -/
def parseExponent? : List Char → Option Int
  | [] => some 0
  | mark :: text =>
    let (negative, digits) := splitSign text
    if (mark = 'e' ∨ mark = 'E') ∧ digits ≠ [] ∧ AllDigits digits then
      some (if negative then -(digitsValue digits : Int) else digitsValue digits)
    else none

/-- Splits off the digits behind a point. -/
def splitFraction : List Char → List Char × List Char
  | '.' :: text => (text.takeWhile Char.isDigit, text.dropWhile Char.isDigit)
  | text => ([], text)

/-- Reads a number without sign: digits, among them a point, and an exponent. -/
def parse? (text : List Char) : Option Decimal :=
  let whole := text.takeWhile Char.isDigit
  let (fraction, rest) := splitFraction (text.dropWhile Char.isDigit)
  if whole ++ fraction = [] then none
  else
    (parseExponent? rest).map fun exponent =>
      ⟨digitsValue (whole ++ fraction), exponent - fraction.length⟩

end Decimal

namespace Double

/-- Reads a double: a number, or the name of what is not finite in letters of either case. -/
def parse? (text : List Char) : Option Double :=
  let (negative, text) := splitSign text
  let word := text.map Char.toLower
  if word = ['i', 'n', 'f'] ∨ word = ['i', 'n', 'f', 'i', 'n', 'i', 't', 'y'] then
    some (.infinity negative)
  else if word = ['n', 'a', 'n'] then some .nan
  else (Decimal.parse? text).map (·.toDouble negative)

/-- The text of a double, with an exponent behind it. -/
def withExponent (x : Double) (exponent : Int32) : List Char :=
  x.toText.toList ++ 'e' :: Json.writeInteger exponent.toInt

/-- Rounds to decimal places by moving the point in the text, there and back; nothing where one of the
two texts cannot be read. -/
def roundText? (places : Int32) (x : Double) : Option Double :=
  if x.isFinite then do
    let shifted ← parse? (x.withExponent places)
    if shifted.isFinite then parse? (shifted.round.withExponent (-places)) else some x
  else some x

end Double

/-! ### What was written is read -/

theorem splitSign_of_digit {c : Char} {text : List Char} (h : c.isDigit = true) :
    splitSign (c :: text) = (false, c :: text) := by
  unfold splitSign
  split
  · next same =>
    rw [(List.cons.inj same).1] at h
    cases h
  · next same =>
    rw [(List.cons.inj same).1] at h
    cases h
  · rfl

theorem splitSign_of_allDigits {digits more : List Char} (some_digit : digits ≠ [])
    (h : AllDigits digits) : splitSign (digits ++ more) = (false, digits ++ more) := by
  obtain ⟨c, cs, rfl⟩ := List.exists_cons_of_ne_nil some_digit
  exact splitSign_of_digit (h c List.mem_cons_self)

section Digits

variable {digits rest : List Char} {c : Char}

theorem takeWhile_digits (h : AllDigits digits) (stop : c.isDigit = false) :
    (digits ++ c :: rest).takeWhile Char.isDigit = digits := by
  rw [List.takeWhile_append_of_pos h, List.takeWhile_cons_of_neg (by simp [stop]), List.append_nil]

theorem dropWhile_digits (h : AllDigits digits) (stop : c.isDigit = false) :
    (digits ++ c :: rest).dropWhile Char.isDigit = c :: rest := by
  rw [List.dropWhile_append_of_pos h, List.dropWhile_cons_of_neg (by simp [stop])]

end Digits

namespace Decimal

theorem parseExponent_writeInteger (n : Int) :
    parseExponent? ('e' :: Json.writeInteger n) = some n := by
  have digits := AllDigits.toDigits n.natAbs
  have some_digit : Nat.toDigits 10 n.natAbs ≠ [] := Nat.toDigits_ne_nil
  unfold Json.writeInteger
  split
  · next negative =>
    rw [parseExponent?, splitSign]
    dsimp only
    rw [if_pos ⟨Or.inl rfl, some_digit, digits⟩, if_pos rfl, digitsValue_toDigits,
      show -(n.natAbs : Int) = n by omega]
  · next nonneg =>
    have unsigned := @splitSign_of_allDigits _ [] some_digit digits
    rw [List.append_nil] at unsigned
    rw [parseExponent?, unsigned]
    dsimp only
    rw [if_pos ⟨Or.inl rfl, some_digit, digits⟩, if_neg Bool.false_ne_true, digitsValue_toDigits,
      show (n.natAbs : Int) = n by omega]

theorem splitFraction_mark (rest : List Char) : splitFraction ('e' :: rest) = ([], 'e' :: rest) :=
  rfl

theorem splitFraction_point {fraction rest : List Char} (h : AllDigits fraction) :
    splitFraction ('.' :: (fraction ++ 'e' :: rest)) = (fraction, 'e' :: rest) := by
  show (List.takeWhile Char.isDigit _, List.dropWhile Char.isDigit _) = _
  rw [takeWhile_digits h (by decide), dropWhile_digits h (by decide)]

/-- A whole part and a fraction are read as their digits. -/
theorem parse_positional {d : Decimal} {whole fraction : List Char}
    (h : d.Positional whole fraction) (exponent : Int) :
    parse? (whole ++ ((if fraction = [] then [] else '.' :: fraction) ++
        'e' :: Json.writeInteger exponent)) =
      some ⟨digitsValue (whole ++ fraction), exponent - fraction.length⟩ := by
  have some_digit : whole ++ fraction ≠ [] := List.append_ne_nil_of_left_ne_nil h.some_digit _
  unfold parse?
  dsimp only
  split
  · next none =>
    subst none
    rw [List.nil_append, takeWhile_digits h.whole_digits (by decide),
      dropWhile_digits h.whole_digits (by decide)]
    rw [splitFraction_mark]
    dsimp only
    rw [if_neg some_digit, parseExponent_writeInteger]
    rfl
  · rw [List.cons_append, takeWhile_digits h.whole_digits (by decide),
      dropWhile_digits h.whole_digits (by decide)]
    rw [splitFraction_point h.fraction_digits]
    dsimp only
    rw [if_neg some_digit, parseExponent_writeInteger]
    rfl

end Decimal

namespace Double

theorem splitSign_withSign {negative : Bool} {digits more : List Char} (some_digit : digits ≠ [])
    (h : AllDigits digits) :
    splitSign (withSign negative (digits ++ more)) = (negative, digits ++ more) := by
  cases negative with
  | true => rfl
  | false => exact splitSign_of_allDigits some_digit h

theorem toLower_of_isDigit {c : Char} (h : c.isDigit = true) : c.toLower = c := by
  have high : c.val ≤ '9'.val := by
    simp only [Char.isDigit, Bool.and_eq_true, decide_eq_true_eq] at h
    exact h.2
  unfold Char.toLower
  rw [dif_neg]
  rintro ⟨low, -⟩
  exact absurd (UInt32.le_trans low high) (by decide)

/-- A text that starts with a digit is no word. -/
theorem map_toLower_ne {digits more word : List Char} {c : Char} (some_digit : digits ≠ [])
    (h : AllDigits digits) (letter : c.isDigit = false) :
    (digits ++ more).map Char.toLower ≠ c :: word := by
  obtain ⟨d, ds, rfl⟩ := List.exists_cons_of_ne_nil some_digit
  intro same
  have first := (List.cons.inj same).1
  rw [toLower_of_isDigit (h d List.mem_cons_self)] at first
  rw [← first, h d List.mem_cons_self] at letter
  cases letter

/-- **What was written is always read**, and an exponent behind it moves the decimal point. -/
theorem parse_withExponent (places : Int32) {x : Double} (h : x.isFinite = true) :
    parse? (x.withExponent places) = some (x.shiftPoint places.toInt) := by
  obtain ⟨negative, m, rfl⟩ := exists_of_isFinite h
  obtain ⟨whole, fraction, parts, text⟩ := (m.shortest .away).exists_positional []
  have value : (⟨digitsValue (whole ++ fraction), places.toInt - fraction.length⟩ : Decimal).toRat =
      ((m.shortest .away).shift places.toInt).toRat := by
    rw [Decimal.toRat_shift, ← Decimal.toRat_plain (m.shortest .away), ← parts.value,
      ← Decimal.toRat_shift, Decimal.shift, neg_add_eq_sub]
  unfold parse? withExponent
  have signed : (finite negative m).toText.toList ++ 'e' :: Json.writeInteger places.toInt =
      withSign negative (whole ++ ((if fraction = [] then [] else '.' :: fraction) ++
        'e' :: Json.writeInteger places.toInt)) := by
    rw [toText, text, String.toList_ofList]
    cases negative <;> simp [withSign]
  rw [signed, splitSign_withSign parts.some_digit parts.whole_digits]
  dsimp only
  rw [if_neg, if_neg (map_toLower_ne parts.some_digit parts.whole_digits (by decide)),
    Decimal.parse_positional parts, Option.map_some, Decimal.toDouble_congr negative value]
  · rfl
  · rintro (word | word)
    · exact map_toLower_ne parts.some_digit parts.whole_digits (by decide) word
    · exact map_toLower_ne parts.some_digit parts.whole_digits (by decide) word

theorem isFinite_of_isFinite_shiftPoint {x : Double} {places : Int}
    (h : (x.shiftPoint places).isFinite = true) : x.isFinite = true := by
  cases x with
  | nan => cases h
  | infinity negative => cases h
  | finite negative m => rfl

/-- All numbers of places but the smallest have their opposite in 32 bits. -/
theorem toInt_neg_of_ne_minValue {places : Int32} (h : places ≠ Int32.minValue) :
    (-places).toInt = -places.toInt := by
  have low := places.le_toInt
  have high := places.toInt_lt
  have least : places.toInt ≠ -2 ^ 31 := fun same =>
    h (Int32.toInt.inj (same.trans Int32.toInt_minValue.symm))
  rw [Int32.toInt_neg]
  exact Int.bmod_eq_of_le (by omega) (by omega)

/-- **Rounding the text never fails**, and is rounding the written digits.  The smallest number of
places has no opposite in 32 bits, by which the point could be moved back. -/
theorem roundText_eq {places : Int32} (h : places ≠ Int32.minValue) (x : Double) :
    x.roundText? places = some (x.roundDecimals places.toInt) := by
  unfold roundText? roundDecimals
  dsimp only
  split
  · next finite =>
    rw [parse_withExponent places finite, Option.bind_eq_bind, Option.bind_some]
    split
    · next shifted =>
      rw [parse_withExponent (-places) (isFinite_round shifted), toInt_neg_of_ne_minValue h]
    · rfl
  · next infinite => rw [if_neg fun shifted => infinite (isFinite_of_isFinite_shiftPoint shifted)]

end Double

/-! ### Roundings by way of texts -/

/-- The rounded value, unless rounding comes upon a text that cannot be read. -/
def Rounding.result? : Rounding → Double → Option Double
  | decimals places, x => x.roundText? places
  | rounding, x => some (rounding.apply x)

/-- The decimal point can be moved there and back. -/
def Rounding.IsReversible (rounding : Rounding) : Prop := rounding ≠ .decimals Int32.minValue

theorem Rounding.isReversible_decimals {places : Int32} (h : places ≠ Int32.minValue) :
    (decimals places).IsReversible := fun same => h (Rounding.decimals.inj same)

theorem Rounding.result?_eq {rounding : Rounding} (h : rounding.IsReversible) (x : Double) :
    rounding.result? x = some (rounding.apply x) := by
  cases rounding with
  | identity => rfl
  | floor => rfl
  | ceil => rfl
  | decimals places => exact Double.roundText_eq (fun least => h (congrArg decimals least)) x

/-- **Every rounding keeps the order**, the infinities included, and comes upon no text on its way
that cannot be read.  This holds also where only one of two values leaves the range of doubles with
its point moved, and is not rounded, and where a value leaves it as the point is moved back. -/
theorem Rounding.mono_on_texts {rounding : Rounding} (reversible : rounding.IsReversible)
    {x y : Double} (h : x ≤ y) :
    rounding.result? x = some (rounding.apply x) ∧ rounding.result? y = some (rounding.apply y) ∧
      rounding.apply x ≤ rounding.apply y :=
  ⟨Rounding.result?_eq reversible x, Rounding.result?_eq reversible y, rounding.apply_le_apply h⟩

/-- With its point moved by 308 places a one is in range, and ten is not, on either side of zero.
Rounded at 308 places before the point, `1.6 · 10 ^ 308` is infinite, as infinity is. -/
theorem Rounding.demo_mono_on_texts :
    let great := (Decimal.mk 16 307).toDouble false
    (((1 : Double).shiftPoint 308).isFinite = true ∧
      ((10 : Double).shiftPoint 308).isFinite = false ∧
      ((-10 : Double).shiftPoint 308).isFinite = false) ∧
    ((1 : Double) ≤ 10 ∧ Rounding.result? (.decimals 308) 1 = some 1 ∧
      Rounding.result? (.decimals 308) 10 = some 10) ∧
    ((-10 : Double) ≤ 1 ∧ Rounding.result? (.decimals 308) (-10) = some (-10)) ∧
    (great.isFinite = true ∧ great ≤ .infinity false ∧
      Rounding.result? (.decimals (-308)) great = some (.infinity false) ∧
      Rounding.result? (.decimals (-308)) (.infinity false) = some (.infinity false)) := by
  intro great
  have far : (Rounding.decimals 308).IsReversible := isReversible_decimals (by decide)
  have near : (Rounding.decimals (-308)).IsReversible := isReversible_decimals (by decide)
  have ordered : (1 : Double) ≤ 10 ∧ (-10 : Double) ≤ 1 ∧ great ≤ .infinity false := by
    decide +kernel
  have shifted : ((1 : Double).shiftPoint 308).isFinite = true ∧
      ((10 : Double).shiftPoint 308).isFinite = false ∧
      ((-10 : Double).shiftPoint 308).isFinite = false ∧ great.isFinite = true := by
    decide +kernel
  have computed : (Rounding.decimals 308).apply 1 = 1 ∧ (Rounding.decimals 308).apply 10 = 10 ∧
      (Rounding.decimals 308).apply (-10) = -10 ∧
      (Rounding.decimals (-308)).apply great = .infinity false := by
    decide +kernel
  obtain ⟨ten, one, limit⟩ := ordered
  obtain ⟨inside, outside, below, finite⟩ := shifted
  obtain ⟨atOne, atTen, atMinusTen, atGreat⟩ := computed
  have upward := mono_on_texts far ten
  have downward := mono_on_texts far one
  have endless := mono_on_texts near limit
  exact ⟨⟨inside, outside, below⟩,
    ⟨ten, upward.1.trans (congrArg some atOne), upward.2.1.trans (congrArg some atTen)⟩,
    ⟨one, downward.1.trans (congrArg some atMinusTen)⟩,
    ⟨finite, limit, endless.1.trans (congrArg some atGreat), endless.2.1⟩⟩

end ExamAdmission

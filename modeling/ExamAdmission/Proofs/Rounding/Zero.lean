/-
Zero stays zero.

A double has two zeros, and products and quotients of nothing may come out as either.  Which of them
it is makes no difference to what is asked of it here, because no step on the way loses it:

* `Double.zero_mul`, `Double.zero_div` — products and quotients of zero are zero, of the sign that
  the operands give;
* `Rounding.apply_zero` — **every rounding leaves both zeros as they are**, however far it moves the
  decimal point;
* `percentOf_zero`, `exists_amountOfPercent_zero` — shares and amounts of nothing.
-/
import ExamAdmission.Percent
import ExamAdmission.Rounding
import ExamAdmission.Proofs.Double.Error
import ExamAdmission.Proofs.Rounding.Monotone

namespace ExamAdmission

namespace Double

variable {y : Double}

theorem zero_eq : (0 : Double) = zero false := by decide

/-- A product of zero is zero. -/
protected theorem zero_mul (negative : Bool) (finite : y.isFinite = true) :
    zero negative * y = zero (negative != y.isNegative) := by
  obtain ⟨t, n, rfl⟩ := exists_of_isFinite finite
  show nearest (negative != t) (Magnitude.zero.toRat * n.toRat) = _
  rw [Magnitude.toRat_zero, zero_mul]
  exact if_pos rfl

/-- A quotient of zero is zero. -/
protected theorem zero_div (negative : Bool) (finite : y.isFinite = true)
    (nonzero : ¬ y.isZero = true) : zero negative / y = zero (negative != y.isNegative) := by
  obtain ⟨t, n, rfl⟩ := exists_of_isFinite finite
  have some_digit : n.significand ≠ 0 := fun none => nonzero (beq_iff_eq.mpr none)
  show (if n.significand = 0 then _
    else nearest (negative != t) (Magnitude.zero.toRat / n.toRat)) = _
  rw [if_neg some_digit, Magnitude.toRat_zero, zero_div]
  exact if_pos rfl

/-- Zero has one digit, which stays the same wherever the decimal point is. -/
theorem shiftPoint_zero (places : Int) (negative : Bool) :
    (zero negative).shiftPoint places = zero negative := rfl

/-- Zero is a whole number already. -/
theorem mapInt_zero {f : Rat → Int} (fixed : ∀ n : Int, f n = n) (negative : Bool) :
    (zero negative).mapInt f = zero negative := by
  have value : signed negative Magnitude.zero.toRat = ((0 : Int) : Rat) := by
    rw [Magnitude.toRat_zero]
    cases negative <;> rfl
  show ofRat negative (f (signed negative Magnitude.zero.toRat) : Rat) = zero negative
  rw [value, fixed]
  rfl

theorem roundDecimals_zero (places : Int) (negative : Bool) :
    (zero negative).roundDecimals places = zero negative := by
  have whole : (zero negative).round = zero negative := mapInt_zero roundHalfAway_intCast negative
  rw [roundDecimals, shiftPoint_zero, whole, shiftPoint_zero]
  rfl

/-- A hundred is positive, so it is neither negative nor zero. -/
theorem hundred_eq : ∃ n, (100 : Double) = finite false n ∧ n.significand ≠ 0 :=
  exists_of_pos isFinite_hundred hundred_pos

end Double

/-- **Every rounding leaves both zeros as they are.** -/
theorem Rounding.apply_zero (rounding : Rounding) (negative : Bool) :
    rounding.apply (.zero negative) = .zero negative := by
  cases rounding with
  | identity => rfl
  | decimals places => exact Double.roundDecimals_zero places.toInt negative
  | floor => exact Double.mapInt_zero Rat.floor_intCast negative
  | ceil => exact Double.mapInt_zero Rat.ceil_intCast negative

/-- Nothing is zero percent of a positive whole. -/
theorem percentOf_zero {whole : Double} (finite : whole.isFinite = true) (pos : 0 < whole) :
    percentOf 0 whole = 0 := by
  obtain ⟨n, rfl, some_digit⟩ := Double.exists_of_pos finite pos
  have nonzero : ¬ (Double.finite false n).isZero = true := fun none =>
    some_digit (beq_iff_eq.mp none)
  have hundred : (100 : Double).isNegative = false := by
    obtain ⟨m, same, -⟩ := Double.hundred_eq
    rw [same]
    rfl
  rw [percentOf, Double.zero_eq, Double.zero_div false finite nonzero,
    Double.zero_mul _ Double.isFinite_hundred, hundred]
  rfl

/-- Any finite percentage of nothing is nothing, even a negative one. -/
theorem exists_amountOfPercent_zero {percent : Double} (finite : percent.isFinite = true) :
    ∃ negative, amountOfPercent 0 percent = .zero negative := by
  have nonzero : ¬ (100 : Double).isZero = true := by
    obtain ⟨m, same, some_digit⟩ := Double.hundred_eq
    rw [same]
    exact fun none => some_digit (beq_iff_eq.mp none)
  rw [amountOfPercent, Double.zero_eq, Double.zero_mul false finite,
    Double.zero_div _ Double.isFinite_hundred nonzero]
  exact ⟨_, rfl⟩

end ExamAdmission

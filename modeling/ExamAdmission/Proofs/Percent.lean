/-
Percentages keep the order of what is achieved.

* `percentOf_le` — the share of more points in the same positive whole is no smaller;
* `amountOfPercent_le` — a greater percentage of the same points is no smaller an amount;
* `Double.zero_le_sum` — points that are worth no less than nothing add up to no less than nothing;
* `Scope.assignmentPercent_le` — the rounded percentage on one assignment keeps the order.
-/
import ExamAdmission.Rule.Scope
import ExamAdmission.Proofs.Double.Error
import ExamAdmission.Proofs.Rounding.Monotone

namespace ExamAdmission

namespace Double

variable {x y : Double}

/-! ### What is worth no less than nothing -/

/-- A finite double that is not below zero is zero or above. -/
theorem pos_of_zero_le (h : 0 ≤ x) (nonzero : ¬ x.isZero = true) : 0 < x := by
  refine ⟨h.1, h.2.1, lt_of_le_of_ne h.2.2 ?_⟩
  rw [rank_ofNat_zero]
  intro zero
  cases x with
  | nan => exact h.2.1 rfl
  | infinity negative =>
    cases negative with
    | false => exact (two_zpow_pos 1024).ne zero
    | true => exact (neg_lt_zero.mpr (two_zpow_pos 1024)).ne' zero
  | finite negative m =>
    have value : m.toRat = 0 := by
      rw [← abs_rank_finite negative m, ← zero]
      exact abs_zero
    exact nonzero (beq_iff_eq.mpr (Magnitude.toRat_eq_zero_iff.mp value))

theorem isFinite_of_isZero (h : x.isZero = true) : x.isFinite = true := by
  cases x with
  | nan => cases h
  | infinity negative => cases h
  | finite negative m => rfl

theorem isZero_iff (finite : x.isFinite = true) : x.isZero = true ↔ x.rank = 0 := by
  obtain ⟨negative, m, rfl⟩ := exists_of_isFinite finite
  show (m.significand == 0) = true ↔ _
  rw [beq_iff_eq, ← Magnitude.toRat_eq_zero_iff, ← abs_rank_finite negative m, abs_eq_zero]

theorem le_zero_of_isZero (h : x.isZero = true) : x ≤ 0 := by
  have finite := isFinite_of_isZero h
  refine ⟨ne_nan_of_isFinite finite, ofNat_ne_nan 0, ?_⟩
  rw [(isZero_iff finite).mp h, rank_ofNat_zero]

theorem not_isZero_of_pos (finite : x.isFinite = true) (h : 0 < x) : ¬ x.isZero = true := by
  rw [isZero_iff finite]
  exact (rank_pos_of_pos h).ne'

theorem zero_le_foldl_add {xs : List Double} (hx : 0 ≤ x)
    (h : ∀ c ∈ xs, c.isFinite = true ∧ 0 ≤ c) : 0 ≤ xs.foldl (· + ·) x := by
  induction xs generalizing x with
  | nil => exact hx
  | cons c xs ih =>
    obtain ⟨hc, nonneg⟩ := h c List.mem_cons_self
    have step : 0 + 0 ≤ x + c := add_le_add isFinite_zero hc hx nonneg
    have zero_add_zero : (0 : Double) + 0 = 0 := by decide +kernel
    exact ih (zero_add_zero ▸ step) fun d hd => h d (List.mem_cons_of_mem c hd)

/-- A sum of finite doubles, none of them below zero, is not below zero. -/
theorem zero_le_sum {xs : List Double} (h : ∀ c ∈ xs, c.isFinite = true ∧ 0 ≤ c) :
    0 ≤ sum xs :=
  zero_le_foldl_add (zero_le_of_rank Double.noConfusion (rank_zero true).ge) h

/-! ### Percentages -/

theorem div_ne_nan (finiteX : x.isFinite = true) (finiteY : y.isFinite = true)
    (nonzero : ¬ y.isZero = true) : x / y ≠ nan := by
  obtain ⟨s, m, rfl⟩ := exists_of_isFinite finiteX
  obtain ⟨t, n, rfl⟩ := exists_of_isFinite finiteY
  have some_digit : n.significand ≠ 0 := fun none => nonzero (beq_iff_eq.mpr none)
  show (if n.significand = 0 then _ else nearest _ _) ≠ nan
  rw [if_neg some_digit]
  exact nearest_ne_nan _ _

end Double

theorem percentOf_ne_nan {part whole : Double} (finitePart : part.isFinite = true)
    (finiteWhole : whole.isFinite = true) (nonzero : ¬ whole.isZero = true) :
    percentOf part whole ≠ .nan :=
  (Double.lifts_mul Double.isFinite_hundred Double.hundred_pos).apply_ne_nan
    (Double.div_ne_nan finitePart finiteWhole nonzero)

section

variable {x y whole : Double}

/-- A greater part is a greater share. -/
theorem percentOf_le (finite : whole.isFinite = true) (pos : 0 < whole) (h : x ≤ y) :
    percentOf x whole ≤ percentOf y whole :=
  Double.mul_le_mul_right Double.isFinite_hundred Double.hundred_pos
    (Double.div_le_div_right finite pos h)

/-- A greater percentage is a greater amount. -/
theorem amountOfPercent_le {total : Double} (finite : total.isFinite = true) (nonneg : 0 ≤ total)
    (finiteX : x.isFinite = true) (finiteY : y.isFinite = true) (h : x ≤ y) :
    amountOfPercent total x ≤ amountOfPercent total y :=
  Double.div_le_div_right Double.isFinite_hundred Double.hundred_pos
    (Double.mul_le_mul_left finite nonneg finiteX finiteY h)

/-- The percentage on one assignment keeps the order of the points achieved. -/
theorem Scope.assignmentPercent_le (scope : Scope) {maxPoints : Double}
    (finite : maxPoints.isFinite = true) (nonneg : 0 ≤ maxPoints) (h : x ≤ y) :
    scope.assignmentPercent x maxPoints ≤ scope.assignmentPercent y maxPoints := by
  unfold assignmentPercent
  split
  · exact Double.le_refl (Double.ofNat_ne_nan 100)
  · next nonzero =>
    have pos := Double.pos_of_zero_le nonneg nonzero
    exact scope.rounding.apply_le_apply (percentOf_le finite pos h)

end

end ExamAdmission

/-
Reaching a percentage, asked in points and in percent.

Whether points are so many percent of what an assignment is worth can be asked in two ways: the
points are compared with the amount that is so many percent, or their share with the percentage.
Exact arithmetic gives both the answer to `worth * percent ≤ 100 * points`.  Doubles round twice on
one side of either comparison, and that tips the answer only near the boundary:

* `rank_percentOf`, `Gradable.amountOfPercent_spec` — what is compared, as exact values rounded
  twice;
* `IsKept`, `le_share_of_kept` — a percentage that its own share reaches is reached by every share
  that is no smaller;
* `IsFar`, `IsReached`, `IsClear` — points that are far from the boundary, or that reach the
  percentage whichever way the roundings go, so that they do not tip the answer;
* `le_percentOf_iff`, `amountOfPercent_le_iff` — of clear points both ways ask the exact question.
-/
import ExamAdmission.Proofs.Double.Error
import ExamAdmission.Proofs.Percent

namespace ExamAdmission

/-! ### What is compared -/

namespace Double

variable {x y c : Double} {q : Rat}

/-- Multiplying by one or more rounds once, also what has reached the place of the infinities. -/
theorem rank_mul_of_one_le (hx : x ≠ nan) (nonneg : 0 ≤ x.rank) (finite : c.isFinite = true)
    (one_le : 1 ≤ c.rank) : (x * c).rank = nearestRank (x.rank * c.rank) := by
  have pos : 0 < c := by
    refine ⟨ofNat_ne_nan 0, ne_nan_of_isFinite finite, ?_⟩
    rw [rank_ofNat_zero]
    linarith
  have lifted := lifts_mul finite pos
  rcases isFinite_or_eq_infinity hx nonneg with finiteX | rfl
  · exact lifted.rank_apply finiteX
  · have far : (2 : Rat) ^ (1024 : Int) ≤ (infinity false).rank * c.rank :=
      le_mul_of_one_le_right (two_zpow_pos 1024).le one_le
    rw [nearestRank_of_limit_le far]
    exact congrArg rank (lifted.infinity false)

end Double

section Share

variable {part whole : Double} (finitePart : part.isFinite = true)
  (finiteWhole : whole.isFinite = true) (pos : 0 < whole)
include finitePart finiteWhole pos

/-- A share is the quotient, rounded, times one hundred, rounded. -/
theorem rank_percentOf (nonneg : 0 ≤ part.rank) :
    (percentOf part whole).rank =
      Double.nearestRank (Double.nearestRank (part.rank / whole.rank) * 100) := by
  have divided := Double.lifts_div finiteWhole pos
  have quotient : (part / whole).rank = Double.nearestRank (part.rank / whole.rank) :=
    divided.rank_apply finitePart
  have nonneg : 0 ≤ (part / whole).rank := by
    rw [quotient]
    exact Double.nearestRank_nonneg (div_nonneg nonneg (Double.rank_pos_of_pos pos).le)
  have defined : part / whole ≠ .nan :=
    divided.apply_ne_nan (Double.ne_nan_of_isFinite finitePart)
  have many : 1 ≤ (100 : Double).rank := by
    rw [Double.rank_hundred]
    norm_num
  rw [percentOf, Double.rank_mul_of_one_le defined nonneg Double.isFinite_hundred many, quotient,
    Double.rank_hundred]

/-- Reaching a percentage is a matter of the share, rounded twice. -/
theorem le_percentOf_iff_rank {percent : Double} (defined : percent ≠ .nan)
    (nonneg : 0 ≤ part.rank) :
    percent ≤ percentOf part whole ↔ percent.rank ≤
      Double.nearestRank (Double.nearestRank (part.rank / whole.rank) * 100) := by
  rw [Double.le_def, rank_percentOf finitePart finiteWhole pos nonneg]
  simp [defined, percentOf_ne_nan finitePart finiteWhole (Double.not_isZero_of_pos finiteWhole pos)]

end Share

open Double

/-- Numbers that a grade is computed from: a percentage above zero and up to one hundred, and finite
points, none below zero, of an assignment that is worth finitely many. -/
structure Gradable (percent worth points : Double) : Prop where
  finitePercent : percent.isFinite = true
  percent_pos : 0 < percent
  percent_le : percent ≤ 100
  finiteWorth : worth.isFinite = true
  worth_pos : 0 < worth
  finitePoints : points.isFinite = true
  points_nonneg : 0 ≤ points

instance (percent worth points : Double) : Decidable (Gradable percent worth points) :=
  decidable_of_iff
    (percent.isFinite = true ∧ 0 < percent ∧ percent ≤ 100 ∧ worth.isFinite = true ∧ 0 < worth ∧
      points.isFinite = true ∧ 0 ≤ points)
    ⟨fun ⟨finitePercent, pos, le, finiteWorth, worth_pos, finitePoints, nonneg⟩ =>
        ⟨finitePercent, pos, le, finiteWorth, worth_pos, finitePoints, nonneg⟩,
      fun h => ⟨h.finitePercent, h.percent_pos, h.percent_le, h.finiteWorth, h.worth_pos,
        h.finitePoints, h.points_nonneg⟩⟩

namespace Gradable

variable {percent worth points : Double} (h : Gradable percent worth points)
include h

theorem rank_percent_pos : 0 < percent.rank := rank_pos_of_pos h.percent_pos

theorem rank_percent_le : percent.rank ≤ 100 := rank_hundred ▸ h.percent_le.2.2

theorem rank_worth_pos : 0 < worth.rank := rank_pos_of_pos h.worth_pos

theorem rank_points_nonneg : 0 ≤ points.rank := rank_ofNat_zero ▸ h.points_nonneg.2.2

/-- The amount is the product, rounded, divided by one hundred, rounded, as long as the product is in
range. -/
theorem amountOfPercent_spec (inRange : worth.rank * percent.rank ≤ greatest.toRat) :
    amountOfPercent worth percent ≠ .nan ∧
      (amountOfPercent worth percent).rank =
        nearestRank (nearestRank (worth.rank * percent.rank) / 100) := by
  have multiplied := lifts_mul h.finitePercent h.percent_pos
  have product : (worth * percent).rank = nearestRank (worth.rank * percent.rank) :=
    multiplied.rank_apply h.finiteWorth
  have nonneg : 0 ≤ worth.rank * percent.rank :=
    mul_nonneg h.rank_worth_pos.le h.rank_percent_pos.le
  have finite : (worth * percent).isFinite = true := by
    refine isFinite_of_abs_rank_lt
      (multiplied.apply_ne_nan (ne_nan_of_isFinite h.finiteWorth)) ?_
    rw [product, abs_of_nonneg (nearestRank_nonneg nonneg)]
    refine lt_of_le_of_lt (nearestRank_mono inRange) ?_
    rw [greatest.nearestRank_toRat]
    exact greatest.toRat_lt
  have divided := lifts_div isFinite_hundred hundred_pos
  refine ⟨divided.apply_ne_nan (ne_nan_of_isFinite finite), ?_⟩
  rw [amountOfPercent, divided.rank_apply finite, product, rank_hundred]

/-- Reaching an amount is a matter of the product, rounded, and its hundredth, rounded. -/
theorem amountOfPercent_le_iff_rank (inRange : worth.rank * percent.rank ≤ greatest.toRat) :
    amountOfPercent worth percent ≤ points ↔
      nearestRank (nearestRank (worth.rank * percent.rank) / 100) ≤ points.rank := by
  obtain ⟨defined, value⟩ := h.amountOfPercent_spec inRange
  rw [le_def, value]
  simp [defined, ne_nan_of_isFinite h.finitePoints]

/-- Points reach the amount if they reach it before its last rounding. -/
theorem amountOfPercent_le (inRange : worth.rank * percent.rank ≤ greatest.toRat)
    (reached : nearestRank (worth.rank * percent.rank) ≤ 100 * points.rank) :
    amountOfPercent worth percent ≤ points := by
  rw [h.amountOfPercent_le_iff_rank inRange, ← nearestRank_rank points]
  exact nearestRank_mono (by linarith)

end Gradable

/-! ### Percentages that are kept -/

/-- A percentage is kept if its own share reaches it: rounding the hundredth, and then a hundred
times that, does not end below it. -/
def IsKept (percent : Rat) : Prop := percent ≤ nearestRank (nearestRank (percent / 100) * 100)

instance (percent : Rat) : Decidable (IsKept percent) := inferInstanceAs (Decidable (_ ≤ _))

/-- Larger quotients have larger shares. -/
theorem share_mono {x y : Rat} (le : x ≤ y) :
    nearestRank (nearestRank x * 100) ≤ nearestRank (nearestRank y * 100) :=
  nearestRank_mono (mul_le_mul_of_nonneg_right (nearestRank_mono le) (by norm_num))

/-- A percentage that is kept is reached by the share of all points that reach it. -/
theorem le_share_of_kept {percent worth points : Rat} (kept : IsKept percent)
    (worth_pos : 0 < worth) (reached : worth * percent ≤ 100 * points) :
    percent ≤ nearestRank (nearestRank (points / worth) * 100) := by
  refine kept.trans (share_mono ?_)
  rw [div_le_div_iff₀ (by norm_num) worth_pos]
  linarith

/-! ### Clear points -/

/-- Points are far from the percentage: the two sides of the exact question differ by more than
rounding moves them, and nothing on the way is so small that doubles have fewer digits. -/
def IsFar (percent worth points : Rat) : Prop :=
  2 ^ (-1015 : Int) ≤ percent ∧ 2 ^ (-1015 : Int) ≤ worth * percent ∧
    2 * roundoff * (worth * percent) ≤ |100 * points - worth * percent|

/-- Points reach the percentage both ways: rounding does not take the amount above them, and it does
not take their share below the percentage, since either that is kept or the share needs no
rounding. -/
def IsReached (percent worth points : Rat) : Prop :=
  worth * percent ≤ 100 * points ∧ nearestRank (worth * percent) ≤ 100 * points ∧
    (IsKept percent ∨ nearestRank (points / worth) = points / worth)

instance (percent worth points : Rat) : Decidable (IsFar percent worth points) :=
  inferInstanceAs (Decidable (_ ∧ _))

instance (percent worth points : Rat) : Decidable (IsReached percent worth points) :=
  inferInstanceAs (Decidable (_ ∧ _))

/-- No rounding tips the answer, whether points reach the percentage. -/
def IsClear (percent worth points : Double) : Prop :=
  worth.rank * percent.rank ≤ greatest.toRat ∧
    (IsFar percent.rank worth.rank points.rank ∨ IsReached percent.rank worth.rank points.rank)

instance (percent worth points : Double) : Decidable (IsClear percent worth points) :=
  inferInstanceAs (Decidable (_ ∧ _))

theorem two_zpow_neg_1015 : (2 : Rat) ^ (-1015 : Int) = 128 * 2 ^ (-1022 : Int) := by
  rw [show (-1015 : Int) = 7 + -1022 by decide, two_zpow_add]
  norm_num

namespace IsFar

variable {percent worth points : Rat} (far : IsFar percent worth points)
include far

/-- Far points are above the boundary or below it by a margin. -/
theorem margin_of_le (reached : worth * percent ≤ 100 * points) :
    (1 + 2 * roundoff) * (worth * percent) ≤ 100 * points := by
  have margin := far.2.2
  rw [abs_of_nonneg (by linarith)] at margin
  linarith

theorem margin_of_lt (missed : 100 * points < worth * percent) :
    100 * points ≤ (1 - 2 * roundoff) * (worth * percent) := by
  have margin := far.2.2
  rw [abs_of_neg (by linarith)] at margin
  linarith

/-! In points: the product moves little, then its hundredth. -/

theorem threshold_le (representable : nearestRank points = points)
    (reached : worth * percent ≤ 100 * points) :
    nearestRank (nearestRank (worth * percent) / 100) ≤ points := by
  have product : MovesLittle (worth * percent) :=
    movesLittle_of_normal ((two_zpow_le_iff.mpr (by decide)).trans far.2.1)
  have pos : 0 < worth * percent := (two_zpow_pos _).trans_le far.2.1
  have below : nearestRank (worth * percent) / 100 ≤ points := by
    have share := mul_pos roundoff_pos pos
    linarith [product.le_mul, far.margin_of_le reached]
  have mono := nearestRank_mono below
  rwa [representable] at mono

theorem lt_threshold (inRange : worth * percent ≤ 2 ^ (1024 : Int))
    (missed : 100 * points < worth * percent) :
    points < nearestRank (nearestRank (worth * percent) / 100) := by
  have pos : 0 < worth * percent := (two_zpow_pos _).trans_le far.2.1
  have product : MovesLittle (worth * percent) :=
    movesLittle_of_normal ((two_zpow_le_iff.mpr (by decide)).trans far.2.1)
  have low := product.mul_le inRange
  have least := nearestRank_mono far.2.1
  rw [nearestRank_two_zpow (by decide) (by decide), two_zpow_neg_1015] at least
  -- a hundredth of it still has all its digits
  have normal : (2 : Rat) ^ (-1022 : Int) ≤ nearestRank (worth * percent) / 100 := by
    linarith [two_zpow_pos (-1022)]
  have small : nearestRank (worth * percent) / 100 ≤ 2 ^ (1024 : Int) :=
    (div_le_self (nearestRank_nonneg pos.le) (by norm_num)).trans (rank_le_limit _)
  have rounded := (movesLittle_of_normal normal).mul_le small
  have margin := far.margin_of_lt missed
  calc points ≤ (1 - 2 * roundoff) * (worth * percent) / 100 := by linarith
    _ < (1 - roundoff) * ((1 - roundoff) * (worth * percent) / 100) := by
      have square := mul_pos (mul_pos roundoff_pos roundoff_pos) pos
      linarith
    _ ≤ (1 - roundoff) * (nearestRank (worth * percent) / 100) :=
      mul_le_mul_of_nonneg_left (by linarith) (by linarith [roundoff_le_half])
    _ ≤ nearestRank (nearestRank (worth * percent) / 100) := rounded

/-! In percent: the quotient moves little, then its hundredfold. -/

theorem le_share (representable : nearestRank percent = percent) (le : percent ≤ 100)
    (worth_pos : 0 < worth) (reached : worth * percent ≤ 100 * points) :
    percent ≤ nearestRank (nearestRank (points / worth) * 100) := by
  have pos : 0 < percent := (two_zpow_pos _).trans_le far.1
  suffices above : percent ≤ nearestRank (points / worth) * 100 by
    have mono := nearestRank_mono above
    rwa [representable] at mono
  have margin : (1 + 2 * roundoff) * percent ≤ 100 * (points / worth) := by
    rw [← mul_div_assoc, le_div_iff₀ worth_pos]
    linarith [far.margin_of_le reached]
  by_cases whole : 1 ≤ points / worth
  · have one := nearestRank_mono whole
    rw [show (1 : Rat) = 2 ^ (0 : Int) from rfl, nearestRank_two_zpow (by decide) (by decide),
      zpow_zero] at one
    linarith
  · have inRange : points / worth ≤ 2 ^ (1024 : Int) :=
      (not_le.mp whole).le.trans (one_le_zpow₀ (by norm_num) (by decide))
    have share := mul_pos roundoff_pos pos
    have normal : (2 : Rat) ^ (-1022 : Int) ≤ points / worth := by
      have least := far.1
      rw [two_zpow_neg_1015] at least
      linarith
    have low := (movesLittle_of_normal normal).mul_le inRange
    calc percent ≤ (1 - roundoff) * ((1 + 2 * roundoff) * percent) := by
          have gain := mul_nonneg share.le (sub_nonneg.mpr roundoff_le_half)
          linarith
      _ ≤ (1 - roundoff) * (100 * (points / worth)) :=
          mul_le_mul_of_nonneg_left margin (by linarith [roundoff_le_half])
      _ ≤ nearestRank (points / worth) * 100 := by linarith

theorem share_lt (worth_pos : 0 < worth) (missed : 100 * points < worth * percent) :
    nearestRank (nearestRank (points / worth) * 100) < percent := by
  have pos : 0 < percent := (two_zpow_pos _).trans_le far.1
  have margin : 100 * (points / worth) ≤ (1 - 2 * roundoff) * percent := by
    rw [← mul_div_assoc, div_le_iff₀ worth_pos]
    linarith [far.margin_of_lt missed]
  by_cases normal : (2 : Rat) ^ (-1022 : Int) ≤ points / worth
  · have quotient := movesLittle_of_normal normal
    have least := nearestRank_mono normal
    rw [nearestRank_two_zpow (by decide) (by decide)] at least
    have hundredfold : MovesLittle (nearestRank (points / worth) * 100) :=
      movesLittle_of_normal (by linarith [two_zpow_pos (-1022)])
    have grow : 0 ≤ 1 + roundoff := by linarith [roundoff_pos]
    calc nearestRank (nearestRank (points / worth) * 100)
        ≤ (1 + roundoff) * (nearestRank (points / worth) * 100) := hundredfold.le_mul
      _ ≤ (1 + roundoff) * ((1 + roundoff) * (points / worth) * 100) := by
          gcongr
          exact quotient.le_mul
      _ = (1 + roundoff) * (1 + roundoff) * (100 * (points / worth)) := by ring
      _ ≤ (1 + roundoff) * (1 + roundoff) * ((1 - 2 * roundoff) * percent) := by gcongr
      _ < percent := by
          -- the margin is a little more than what rounding twice gains
          have square := mul_pos (mul_pos roundoff_pos roundoff_pos) pos
          have cube := mul_pos roundoff_pos square
          linarith
  · -- a quotient with fewer digits is at most the smallest one with all of them
    have high := nearestRank_mono (not_le.mp normal).le
    rw [nearestRank_two_zpow (by decide) (by decide)] at high
    have bound : nearestRank (points / worth) * 100 ≤ (100 : Nat) * 2 ^ (-1022 : Int) := by
      rw [Nat.cast_ofNat]
      linarith
    have mono := nearestRank_mono bound
    rw [nearestRank_of_digits (by decide) (by decide) (mul_two_zpow_le (k := 7) (by decide)
      (by decide))] at mono
    have least := far.1
    rw [two_zpow_neg_1015] at least
    rw [Nat.cast_ofNat] at mono
    linarith [two_zpow_pos (-1022)]

end IsFar

/-! ### Both ways ask the exact question -/

section Clear

variable {percent worth points : Double} (h : Gradable percent worth points)
  (clear : IsClear percent worth points)
include h clear

/-- **In points**: clear points reach the amount exactly if they do in exact arithmetic. -/
theorem amountOfPercent_le_iff :
    amountOfPercent worth percent ≤ points ↔ worth.rank * percent.rank ≤ 100 * points.rank := by
  obtain ⟨inRange, far | ⟨reached, amount, -⟩⟩ := clear
  · rw [h.amountOfPercent_le_iff_rank inRange]
    constructor
    · intro passed
      by_contra missed
      have above := far.lt_threshold (inRange.trans greatest.toRat_lt.le) (not_le.mp missed)
      exact absurd passed (not_le.mpr above)
    · exact far.threshold_le (nearestRank_rank points)
  · exact iff_of_true (h.amountOfPercent_le inRange amount) reached

/-- **In percent**: the share of clear points reaches the percentage exactly if it does in exact
arithmetic. -/
theorem le_percentOf_iff :
    percent ≤ percentOf points worth ↔ worth.rank * percent.rank ≤ 100 * points.rank := by
  obtain ⟨-, clear⟩ := clear
  rw [le_percentOf_iff_rank h.finitePoints h.finiteWorth h.worth_pos
    (ne_nan_of_isFinite h.finitePercent) h.rank_points_nonneg]
  rcases clear with far | ⟨reached, -, kept | unrounded⟩
  · constructor
    · intro passed
      by_contra missed
      have below := far.share_lt h.rank_worth_pos (not_le.mp missed)
      exact absurd passed (not_le.mpr below)
    · exact far.le_share (nearestRank_rank percent) h.rank_percent_le h.rank_worth_pos
  · exact iff_of_true (le_share_of_kept kept h.rank_worth_pos reached) reached
  · refine iff_of_true ?_ reached
    have above : percent.rank ≤ points.rank / worth.rank * 100 := by
      rw [div_mul_eq_mul_div, le_div_iff₀ h.rank_worth_pos]
      linarith
    rw [unrounded]
    exact nearestRank_rank percent ▸ nearestRank_mono above

end Clear

/-- Six of ten points are clear at 60 percent, and 29 of a hundred are not at 29. -/
example : IsClear 60 10 6 ∧ ¬ IsClear 29 100 29 := by decide +kernel

end ExamAdmission

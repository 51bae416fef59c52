/-
Reaching a whole percentage with whole points.

Whole points reach a whole percentage, in exact arithmetic, if a hundred times the points are at
least the product of the percentage and what can be achieved.  The amount in doubles is so exact
that points reach it just then, unless there are very many.  A share is rounded twice before it is
compared, and points that reach exactly 29, 57 or 58 percent lose by that.  Apart from them, and
from so many points that neighbouring shares are one double, it answers the exact question too:

* `IsWhole` — doubles that are natural numbers;
* `isKept_iff` — the percentages that their own share reaches;
* `Reaches`, `IsSettled` — the exact answer but for the other percentages, and where it holds;
* `isSettled_of_few` — it holds as long as there are not very many points;
* `amountOfPercent_le_iff_of_few` — few points reach an amount exactly if they do;
* `ofNat_le_percentOf_iff` — settled points reach a percentage by their share exactly if they do.
-/
import ExamAdmission.Proofs.Boundary
import ExamAdmission.Proofs.Double.Total

namespace ExamAdmission

open Double

/-! ### Whole numbers -/

namespace Double

/-- The double is a natural number. -/
structure IsWhole (x : Double) (n : Nat) : Prop where
  finite : x.isFinite = true
  rank : x.rank = n

instance (x : Double) (n : Nat) : Decidable (IsWhole x n) :=
  decidable_of_iff (x.isFinite = true ∧ x.rank = n)
    ⟨fun h => ⟨h.1, h.2⟩, fun whole => ⟨whole.finite, whole.rank⟩⟩

theorem isWhole_ofNat {n : Nat} (small : n ≤ 2 ^ 53) : IsWhole (ofNat n) n :=
  ⟨isFinite_ofNat small, rank_ofNat small⟩

namespace IsWhole

variable {x : Double} {n : Nat} (whole : IsWhole x n)
include whole

theorem isNonneg : IsNonneg x := ⟨whole.finite, whole.rank ▸ Nat.cast_nonneg n⟩

theorem pos (some : 0 < n) : 0 < x := by
  refine ⟨ofNat_ne_nan 0, ne_nan_of_isFinite whole.finite, ?_⟩
  rw [rank_ofNat_zero, whole.rank]
  exact_mod_cast some

end IsWhole

end Double

/-! ### Which percentages shares reach -/

/-- The percentages that their own share misses: a hundred times the double nearest to 29 / 100 is
rounded to a little less than 29, and likewise for the others. -/
def roundedDown : List Nat := [29, 57, 58]

/-- A share of exactly so many percent reaches them, except for these percentages. -/
theorem isKept_iff {percent : Nat} (le : percent ≤ 100) :
    IsKept percent ↔ percent ∉ roundedDown := by
  have all : ∀ q : Fin 101, IsKept ((q.val : Nat) : Rat) ↔ q.val ∉ roundedDown := by
    decide +kernel
  exact all ⟨percent, Nat.lt_succ_of_le le⟩

/-- So many points of what can be achieved reach the percentage, and exceed it where it is one that
shares miss. -/
def Reaches (percent worth points : Nat) : Prop :=
  percent * worth ≤ 100 * points ∧ (percent * worth = 100 * points → percent ∉ roundedDown)

instance (percent worth points : Nat) : Decidable (Reaches percent worth points) :=
  inferInstanceAs (Decidable (_ ∧ _))

/-- Rounding has no say: the points reach a percentage that its own share reaches, or they are on
the boundary, or the two sides of the exact question differ by the share `2 ^ (-52)` at least. -/
def IsSettled (percent worth points : Nat) : Prop :=
  (percent * worth ≤ 100 * points ∧ percent ∉ roundedDown) ∨ percent * worth = 100 * points ∨
    percent * worth ≤ 2 ^ 52 * ((100 * points : Nat) - (percent * worth : Nat) : Int).natAbs

/-- Of few points all that are not on the boundary differ from it by that share. -/
theorem apart_of_few {percent worth points : Nat} (few : percent * worth ≤ 2 ^ 52)
    (off_boundary : percent * worth ≠ 100 * points) :
    percent * worth ≤ 2 ^ 52 * ((100 * points : Nat) - (percent * worth : Nat) : Int).natAbs := by
  have apart : 1 ≤ ((100 * points : Nat) - (percent * worth : Nat) : Int).natAbs := by omega
  calc percent * worth ≤ 2 ^ 52 * 1 := few
    _ ≤ _ := Nat.mul_le_mul_left _ apart

/-- Points are settled unless there are very many of them. -/
theorem isSettled_of_few {percent worth points : Nat} (few : percent * worth ≤ 2 ^ 52) :
    IsSettled percent worth points := by
  by_cases boundary : percent * worth = 100 * points
  · exact Or.inr (Or.inl boundary)
  · exact Or.inr (Or.inr (apart_of_few few boundary))

section Share

variable {percent worth points : Nat}

/-- Points that differ from the boundary by that share are far from it. -/
theorem isFar_of_apart (some_percent : 0 < percent) (some_worth : 0 < worth)
    (apart : percent * worth ≤
      2 ^ 52 * ((100 * points : Nat) - (percent * worth : Nat) : Int).natAbs) :
    IsFar percent worth points := by
  have tiny : (2 : Rat) ^ (-1015 : Int) ≤ 1 := zpow_le_one_of_nonpos₀ (by norm_num) (by decide)
  have one_le : (1 : Rat) ≤ percent := by exact_mod_cast some_percent
  have one_le_product : (1 : Rat) ≤ worth * percent := by
    exact_mod_cast Nat.mul_pos some_worth some_percent
  refine ⟨tiny.trans one_le, tiny.trans one_le_product, ?_⟩
  have cast : (percent * worth : Rat) ≤ 2 ^ 52 * |100 * (points : Rat) - percent * worth| := by
    have apart : ((percent * worth : Nat) : Rat) ≤
        ((2 ^ 52 * ((100 * points : Nat) - (percent * worth : Nat) : Int).natAbs : Nat) : Rat) := by
      exact_mod_cast apart
    rw [Nat.cast_mul, Nat.cast_mul, Nat.cast_natAbs] at apart
    push_cast at apart
    exact apart
  -- two units of roundoff are the share that the points are apart
  have unit : 2 * roundoff * 2 ^ 52 = 1 := by
    unfold roundoff
    norm_num
  calc 2 * roundoff * (worth * percent) = 2 * roundoff * (percent * worth) := by ring
    _ ≤ 2 * roundoff * (2 ^ 52 * |100 * (points : Rat) - percent * worth|) :=
      mul_le_mul_of_nonneg_left cast (by linarith [roundoff_pos])
    _ = 2 * roundoff * 2 ^ 52 * |100 * (points : Rat) - worth * percent| := by ring_nf
    _ = |100 * (points : Rat) - worth * percent| := by rw [unit, one_mul]

/-- **Settled points reach a percentage by their share exactly if they do.** -/
theorem le_share_iff (le : percent ≤ 100) (some_worth : 0 < worth)
    (settled : IsSettled percent worth points) :
    (percent : Rat) ≤ nearestRank (nearestRank ((points : Rat) / worth) * 100) ↔
      Reaches percent worth points := by
  have worth_pos : (0 : Rat) < worth := by exact_mod_cast some_worth
  -- a percentage that its own share reaches is reached by every share that is no smaller
  have above : percent * worth ≤ 100 * points → percent ∉ roundedDown →
      (percent : Rat) ≤ nearestRank (nearestRank ((points : Rat) / worth) * 100) := by
    intro reached kept
    refine le_share_of_kept ((isKept_iff le).mpr kept) worth_pos ?_
    rw [mul_comm (worth : Rat)]
    exact_mod_cast reached
  rcases settled with ⟨reached, kept⟩ | boundary | apart
  · exact iff_of_true (above reached kept) ⟨reached, fun _ => kept⟩
  · -- on the boundary the share is that of the percentage itself, whatever the points are
    have quotient : (points : Rat) / worth = percent / 100 := by
      rw [div_eq_div_iff worth_pos.ne' (by norm_num), mul_comm]
      exact_mod_cast boundary.symm
    rw [quotient]
    change IsKept percent ↔ _
    rw [isKept_iff le]
    exact ⟨fun kept => ⟨boundary.le, fun _ => kept⟩, fun reached => reached.2 boundary⟩
  · rcases Nat.eq_zero_or_pos percent with rfl | some_percent
    · have nothing : 0 * worth ≤ 100 * points := by omega
      exact iff_of_true (above nothing (by decide)) ⟨nothing, fun _ => by decide⟩
    · -- far from the boundary both roundings together do not reach it
      have far := isFar_of_apart some_percent some_worth apart
      have product : 0 < percent * worth := Nat.mul_pos some_percent some_worth
      have off_boundary : percent * worth ≠ 100 * points := by omega
      have decided : Reaches percent worth points ↔ (worth : Rat) * percent ≤ 100 * points := by
        rw [Reaches, and_iff_left fun same => absurd same off_boundary, mul_comm (worth : Rat)]
        exact_mod_cast Iff.rfl
      rw [decided]
      constructor
      · intro passed
        by_contra missed
        exact absurd passed (not_le.mpr (far.share_lt worth_pos (not_le.mp missed)))
      · have representable : nearestRank (percent : Rat) = percent := by
          rw [← rank_ofNat (le.trans (by decide)), nearestRank_rank]
        exact far.le_share representable (by exact_mod_cast le) worth_pos

end Share

/-! ### Doubles that are whole numbers -/

section Doubles

variable {percent worth points : Nat} {maxPoints achieved : Double}
  (wholeWorth : IsWhole maxPoints worth) (wholePoints : IsWhole achieved points)
include wholeWorth

/-- A percentage that can be graded with is between zero and one hundred as a natural number. -/
theorem Gradable.bounds_of_few (gradable : Gradable (ofNat percent) maxPoints achieved)
    (few : percent * worth ≤ 2 ^ 52) : 0 < percent ∧ percent ≤ 100 ∧ 0 < worth := by
  have some_worth : 0 < worth := by
    have pos := gradable.rank_worth_pos
    rw [wholeWorth.rank] at pos
    exact_mod_cast pos
  have small := (Nat.le_mul_of_pos_right percent some_worth).trans few
  have value : (ofNat percent).rank = percent := rank_ofNat (small.trans (by decide))
  have pos := gradable.rank_percent_pos
  have le := gradable.rank_percent_le
  rw [value] at pos le
  exact ⟨by exact_mod_cast pos, by exact_mod_cast le, some_worth⟩

include wholePoints

/-- Settled points reach a percentage as doubles exactly if they do as natural numbers. -/
theorem ofNat_le_percentOf_iff (le : percent ≤ 100) (some_worth : 0 < worth)
    (settled : IsSettled percent worth points) :
    ofNat percent ≤ percentOf achieved maxPoints ↔ Reaches percent worth points := by
  have required := isWhole_ofNat (le.trans (by decide))
  rw [le_percentOf_iff_rank wholePoints.finite wholeWorth.finite (wholeWorth.pos some_worth)
    (ne_nan_of_isFinite required.finite) wholePoints.isNonneg.2, required.rank, wholePoints.rank,
    wholeWorth.rank]
  exact le_share_iff le some_worth settled

/-- Few points reach an amount as doubles exactly if they do as natural numbers: the product needs
no rounding, so that the amount is never above points on the boundary. -/
theorem amountOfPercent_le_iff_of_few (gradable : Gradable (ofNat percent) maxPoints achieved)
    (few : percent * worth ≤ 2 ^ 52) :
    amountOfPercent maxPoints (ofNat percent) ≤ achieved ↔ percent * worth ≤ 100 * points := by
  obtain ⟨some_percent, le, some_worth⟩ := gradable.bounds_of_few wholeWorth few
  have required := isWhole_ofNat (le.trans (by decide))
  have whole := isWhole_ofNat (few.trans (by decide))
  have product : maxPoints.rank * (ofNat percent).rank = (ofNat (percent * worth)).rank := by
    rw [wholeWorth.rank, required.rank, whole.rank, Nat.cast_mul, mul_comm]
  have inRange : maxPoints.rank * (ofNat percent).rank ≤ greatest.toRat :=
    product ▸ rank_le_greatest whole.finite
  by_cases reached : percent * worth ≤ 100 * points
  · refine iff_of_true (gradable.amountOfPercent_le inRange ?_) reached
    rw [product, nearestRank_rank, whole.rank, wholePoints.rank]
    exact_mod_cast reached
  · -- what does not reach the boundary is far from it, so that the last rounding has no say
    have off_boundary : percent * worth ≠ 100 * points := fun same => reached same.le
    have far := isFar_of_apart some_percent some_worth (apart_of_few few off_boundary)
    rw [← wholeWorth.rank, ← wholePoints.rank, ← required.rank] at far
    rw [amountOfPercent_le_iff gradable ⟨inRange, Or.inl far⟩, product, whole.rank,
      wholePoints.rank]
    exact_mod_cast Iff.rfl

end Doubles

end ExamAdmission

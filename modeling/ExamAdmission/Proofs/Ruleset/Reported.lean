/-
The reported percentage never contradicts the decision.

A verdict shows a percentage beside the decision, and for the rules that count it is not what the
decision was made from: the counts themselves are compared, and the percentage is their quotient,
rounded, times one hundred, rounded.  Two doubles that differ at all differ by a share of the larger
one that both roundings together do not make up for:

* `Double.rank_div_le_of_lt` — the quotient of a smaller double by a larger one;
* `hundred_le_percentOf_iff`, `percentOf_le_hundred_iff` — **a part is compared with its whole
  exactly as its share with a hundred percent**;
* `Rule.reported_percent_agrees` — what every verdict shows agrees with its decision.
-/
import ExamAdmission.Course.Demo
import ExamAdmission.Proofs.Double.Shortest
import ExamAdmission.Proofs.Ruleset.Share

namespace ExamAdmission

open Double

/-! ### Shares and a hundred percent -/

/-- A quotient of doubles that is below one is so by a unit of roundoff. -/
theorem Double.rank_div_le_of_lt {x y : Double} (finite : y.isFinite = true) (pos : 0 < y)
    (h : x.rank < y.rank) : x.rank / y.rank ≤ 1 - roundoff := by
  have positive := rank_pos_of_pos pos
  obtain ⟨m, rfl, -⟩ := exists_of_pos finite pos
  have gap : roundoff * (Double.finite false m).rank ≤ |x.rank - (Double.finite false m).rank| :=
    Magnitude.gap_le h.ne
  rw [abs_sub_comm, abs_of_pos (sub_pos.mpr h)] at gap
  rw [div_le_iff₀ positive, sub_mul, one_mul]
  exact le_sub_comm.mp gap

/-- The greatest such quotient, and its inverse, are told apart from a hundred percent, whatever is
rounded. -/
theorem shares_around_hundred :
    nearestRank (nearestRank (1 - roundoff) * 100) < 100 ∧
      100 < nearestRank (nearestRank (1 - roundoff)⁻¹ * 100) := by
  decide +kernel

theorem share_lt_hundred {q : Rat} (h : q ≤ 1 - roundoff) :
    nearestRank (nearestRank q * 100) < 100 :=
  (share_mono h).trans_lt shares_around_hundred.1

theorem hundred_lt_share {q : Rat} (h : (1 - roundoff)⁻¹ ≤ q) :
    100 < nearestRank (nearestRank q * 100) :=
  shares_around_hundred.2.trans_le (share_mono h)

theorem share_of_whole : nearestRank (nearestRank 1 * 100) = 100 := by
  have one : nearestRank 1 = 1 := Magnitude.nearestRank_natCast (n := 1) (by decide)
  rw [one, one_mul]
  exact Magnitude.nearestRank_natCast (n := 100) (by decide)

section Share

variable {part whole : Double} (finitePart : part.isFinite = true) (nonneg : 0 ≤ part)
  (pos : 0 < whole)
include finitePart nonneg pos

/-- **A part reaches its whole exactly if its share reaches a hundred percent.** -/
theorem hundred_le_percentOf_iff : 100 ≤ percentOf part whole ↔ whole ≤ part := by
  have nonneg : 0 ≤ part.rank := rank_ofNat_zero ▸ nonneg.2.2
  by_cases finiteWhole : whole.isFinite = true
  · have positive := rank_pos_of_pos pos
    have defined : (100 : Double) ≠ .nan := ofNat_ne_nan 100
    rw [le_percentOf_iff_rank finitePart finiteWhole pos defined nonneg, rank_hundred]
    constructor
    · intro reached
      refine ⟨ne_nan_of_isFinite finiteWhole, ne_nan_of_isFinite finitePart, ?_⟩
      by_contra below
      have quotient := rank_div_le_of_lt finiteWhole pos (not_le.mp below)
      exact absurd reached (not_le.mpr (share_lt_hundred quotient))
    · intro reached
      have quotient : 1 ≤ part.rank / whole.rank := (one_le_div positive).mpr reached.2.2
      exact share_of_whole.symm.trans_le (share_mono quotient)
  · -- no finite part reaches an infinite whole, and its share is zero
    obtain ⟨negative, rfl⟩ := exists_eq_infinity pos.2.1 finiteWhole
    obtain ⟨sign, m, rfl⟩ := exists_of_isFinite finitePart
    cases negative with
    | true =>
      exact absurd (rank_pos_of_pos pos) (not_lt.mpr (neg_nonpos.mpr (two_zpow_pos 1024).le))
    | false =>
      have share : percentOf (.finite sign m) (.infinity false) = zero sign * 100 := by
        show zero (sign != false) * 100 = _
        rw [Bool.bne_false]
      have none : (zero sign * 100).rank = 0 := by
        rw [rank_mul rfl isFinite_hundred, rank_zero, zero_mul, nearestRank_zero]
      refine iff_of_false (fun reached => ?_) fun reached =>
        absurd reached.2.2 (not_le.mpr (rank_lt_limit sign m))
      have bound := reached.2.2
      rw [share, none, rank_hundred] at bound
      norm_num at bound

/-- **A part is within its whole exactly if its share is within a hundred percent.** -/
theorem percentOf_le_hundred_iff (finiteWhole : whole.isFinite = true) :
    percentOf part whole ≤ 100 ↔ part ≤ whole := by
  have nonneg : 0 ≤ part.rank := rank_ofNat_zero ▸ nonneg.2.2
  have positive := rank_pos_of_pos pos
  have share := rank_percentOf finitePart finiteWhole pos nonneg
  constructor
  · intro within
    refine ⟨ne_nan_of_isFinite finitePart, ne_nan_of_isFinite finiteWhole, ?_⟩
    by_contra above
    have above := not_le.mp above
    have somePart : 0 < part := by
      refine ⟨ofNat_ne_nan 0, ne_nan_of_isFinite finitePart, ?_⟩
      rw [rank_ofNat_zero]
      exact positive.trans above
    -- of the two it is the larger one whose share the difference is
    have quotient := inv_anti₀ (div_pos positive (rank_pos_of_pos somePart))
      (rank_div_le_of_lt finitePart somePart above)
    rw [inv_div] at quotient
    have beyond := hundred_lt_share quotient
    rw [← share] at beyond
    exact absurd within.2.2 (not_le.mpr (rank_hundred ▸ beyond))
  · intro within
    refine ⟨percentOf_ne_nan finitePart finiteWhole (not_isZero_of_pos finiteWhole pos),
      ofNat_ne_nan 100, ?_⟩
    have quotient : part.rank / whole.rank ≤ 1 := (div_le_one positive).mpr within.2.2
    rw [share, rank_hundred]
    exact (share_mono quotient).trans_eq share_of_whole

end Share

/-! ### The rules -/

section Rules

variable {participant : Participant}

theorem OverallPercent.percent_agrees {rule : OverallPercent}
    (counts : participant.id ∉ rule.scope.ignored)
    (nonzero : ¬ rule.totalAchievable.isZero = true) :
    (rule.check participant).passed = true ↔
      rule.scope.requiredPercent ≤ (rule.check participant).achievedPercent := by
  rw [check, if_neg counts, if_neg nonzero]
  exact decide_eq_true_iff

/-- More failures than are allowed are more than a hundred percent of them. -/
theorem AllowedFailures.percent_agrees {rule : AllowedFailures}
    (counts : participant.id ∉ rule.scope.ignored) (allows : 0 < rule.allowed) :
    (rule.check participant).passed = true ↔
      (rule.check participant).achievedPercent ≤ 100 := by
  have nonzero : rule.allowed ≠ 0 := UInt32.pos_iff_ne_zero.mp allows
  have some_allowed := isWhole_ofNat (word_le_digits rule.allowed)
  have counted := isWhole_ofNat (word_le_digits (rule.failures participant))
  have used : (rule.check participant).achievedPercent =
      percentOf (.ofNat (rule.failures participant).toNat) (.ofNat rule.allowed.toNat) := by
    rw [check, if_neg counts]
    exact if_neg nonzero
  rw [check_passed_iff, or_iff_right counts, used,
    percentOf_le_hundred_iff counted.finite (zero_le_ofNat _)
      (some_allowed.pos (UInt32.lt_iff_toNat_lt.mp allows)) some_allowed.finite,
    UInt32.le_iff_toNat_le, Double.le_def, counted.rank, some_allowed.rank, Nat.cast_le]
  simp [ofNat_ne_nan]

/-- Fewer passed assignments than are required are less than a hundred percent of them, also where a
fraction is required. -/
theorem PassedAssignments.percent_agrees {rule : PassedAssignments}
    (few : rule.thresholds.length < 2 ^ 32) (counts : participant.id ∉ rule.scope.ignored)
    (required : 0 < rule.requiredCount) :
    (rule.check participant).passed = true ↔
      100 ≤ (rule.check participant).achievedPercent := by
  have nonzero : ¬ rule.requiredCount.isZero = true := fun zero =>
    absurd required.2.2 (not_lt.mpr (le_zero_of_isZero zero).2.2)
  have counted : rule.passedCount participant ≤ 2 ^ 53 :=
    (List.countP_le_length.trans_lt few).le.trans (by decide)
  have shown : (rule.check participant).achievedPercent =
      percentOf (.ofNat (rule.passedCount participant)) rule.requiredCount := by
    rw [check, if_neg counts]
    exact congrArg Verdict.achievedPercent (if_neg nonzero)
  rw [check_passed_iff, or_iff_right counts, or_iff_right nonzero, shown,
    hundred_le_percentOf_iff (isFinite_ofNat counted) (zero_le_ofNat _) required]

end Rules

/-- The percentage in a verdict of the rule says the same as its decision: what is achieved reaches
what is required, all allowed failures are not used up beyond a hundred percent, and all required
assignments are passed to a hundred percent at least.  Nothing is said where there is nothing to
take a share of. -/
def Gate.PercentAgrees (gate : Gate) (verdict : Verdict) : Prop :=
  match gate with
  | overallPercent rule => ¬ rule.totalAchievable.isZero = true →
      (verdict.passed = true ↔ rule.scope.requiredPercent ≤ verdict.achievedPercent)
  | allowedFailures rule => 0 < rule.allowed →
      (verdict.passed = true ↔ verdict.achievedPercent ≤ 100)
  | passedAssignments rule => 0 < rule.requiredCount →
      (verdict.passed = true ↔ 100 ≤ verdict.achievedPercent)

namespace Rule

/-- **The reported percentage never contradicts the decision.**  A deciding rule that is built looks
at a participant for whom it counts: the verdict passes exactly if the percentage in it says so,
whatever the points, the roundings and the counts are. -/
theorem reported_percent_agrees {criterion : Criterion} {assignments : List Assignment}
    {gate : Gate} {participant : Participant} (built : ofCriterion criterion assignments = .ok (.gate gate))
    (few : assignments.length < 2 ^ 32)
    (included : participant.id ∉ criterion.ignoredParticipants) :
    gate.PercentAgrees (gate.check participant) := by
  have stated := ofCriterion_eq_ok_iff.mp built
  obtain ⟨rounding, -, hscope⟩ := Scope.ofCriterion_eq_ok_iff.mp stated.scope_stated
  have counts : participant.id ∉ gate.scope.ignored := by
    rw [show gate.scope = _ from hscope]
    exact included
  cases stated with
  | overallPercent => exact fun nonzero => OverallPercent.percent_agrees counts nonzero
  | allowedFailures => exact fun allows => AllowedFailures.percent_agrees counts allows
  | @passedAssignments scope percent countRounding =>
    have matching : (PassedAssignments.ofScope scope percent countRounding
        assignments).thresholds.length < 2 ^ 32 := by
      rw [PassedAssignments.ofScope, List.length_map]
      exact (List.length_filter_le _ _).trans_lt few
    exact fun required => PassedAssignments.percent_agrees matching counts required

/-- Half of three sheets are one and a half: ada, who passes one of them, is shown with 66.67
percent and fails. -/
theorem demo_reported_percent_agrees :
    let sheets := [Demo.evaluated "sheet-1" .homework 10, Demo.evaluated "sheet-2" .homework 10,
      Demo.evaluated "sheet-3" .homework 10]
    let ada := Demo.participant "ada" [("sheet-1", some 10)]
    ∃ rule : PassedAssignments,
      ofCriterion { Criterion.plain .passedAssignments .homework 50 with
        passedAssignmentsPercent := some 50 } sheets = .ok (.gate (.passedAssignments rule)) ∧
      rule.requiredCount = Demo.tenths 15 ∧
      (rule.check ada).achievedPercent.toHundredths = "66.67" ∧
      ¬ (rule.check ada).passed = true := by
  intro sheets ada
  have built : ofCriterion { Criterion.plain .passedAssignments .homework 50 with
      passedAssignmentsPercent := some 50 } sheets = .ok (.gate (.passedAssignments
        (.ofScope ⟨.homework, 50, .identity, .empty⟩ 50 .identity sheets))) := rfl
  refine ⟨_, built, by decide +kernel, by decide +kernel, fun passed => ?_⟩
  have included : ada.id ∉ IdSet.empty := List.not_mem_nil
  have agrees := reported_percent_agrees built (by decide) included
  have reached : (100 : Double) ≤ _ := (agrees (by decide +kernel)).mp passed
  exact absurd reached (by decide +kernel)

end Rule

end ExamAdmission

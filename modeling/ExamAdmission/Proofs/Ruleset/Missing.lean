/-
Assignments without points.

An assignment is missing for a participant whose last record of it has no points, or who has no
record of it (`Assessment.isMissing`).  A rule on the number of passed assignments takes zero points
for it, and zero points reach a threshold that has been rounded to zero (`Rounding.Forgives`):

* `Assessment.isMissing_iff` — what is missing;
* `amountOfPercent_le_zero_iff` — an amount in percent is zero only where the product is tiny;
* `PassedAssignments.isPassed_iff_forgives` — **a missing assignment is passed exactly if its
  threshold is rounded to zero**;
* `Rule.passedCount_of_missing` — how many assignments a participant passes, those with points and
  those without;
* `Rule.missing_passed` — where the required half of one point is rounded down, nothing handed in
  passes.
-/
import ExamAdmission.Course.Demo
import ExamAdmission.Proofs.Course.Assessments
import ExamAdmission.Proofs.Rounding.Vanishing
import ExamAdmission.Proofs.Ruleset.Arithmetic
import ExamAdmission.Proofs.Ruleset.Threshold

namespace ExamAdmission

open Double

/-! ### Missing assignments -/

namespace Assessment

/-- No points are known for the assignment. -/
def isMissing (records : List Assessment) (assignment : AssignmentId) : Bool :=
  ((records.reverse.find? (·.assignment = assignment)).bind (·.points)).isNone

variable {records : List Assessment} {assignment : AssignmentId}

/-- An assignment is missing if it has no record, or if the last one has no points. -/
theorem isMissing_iff :
    isMissing records assignment = true ↔
      (∀ record ∈ records, record.assignment ≠ assignment) ∨
      ∃ earlier later, records = earlier ++ ⟨assignment, none⟩ :: later ∧
        ∀ other ∈ later, other.assignment ≠ assignment := by
  constructor
  · intro missing
    rw [isMissing] at missing
    cases found : records.reverse.find? (·.assignment = assignment) with
    | none =>
      refine Or.inl fun record mem own => ?_
      exact List.find?_eq_none.mp found record (List.mem_reverse.mpr mem) (decide_eq_true own)
    | some record =>
      rw [found] at missing
      obtain ⟨own, earlier, later, split, others⟩ := find?_reverse_eq_some_iff.mp found
      have empty : record.points = none := Option.isNone_iff_eq_none.mp missing
      have last : record = ⟨assignment, none⟩ := by rw [← of_decide_eq_true own, ← empty]
      refine Or.inr ⟨earlier, later, last ▸ split, fun other mem => ?_⟩
      simpa using others other mem
  · rintro (absent | ⟨earlier, later, rfl, last⟩)
    · have none : records.reverse.find? (·.assignment = assignment) = none :=
        List.find?_eq_none.mpr fun record mem own =>
          absent record (List.mem_reverse.mp mem) (of_decide_eq_true own)
      rw [isMissing, none]
      rfl
    · have found : (earlier ++ ⟨assignment, none⟩ :: later).reverse.find?
          (·.assignment = assignment) = some ⟨assignment, none⟩ := by
        refine find?_reverse_eq_some_iff.mpr
          ⟨decide_eq_true rfl, earlier, later, rfl, fun other mem => ?_⟩
        simpa using last other mem
      rw [isMissing, found]
      rfl

theorem pointsFor_of_isMissing (missing : isMissing records assignment = true) :
    pointsFor records assignment = 0 := by
  rw [pointsFor, Option.isNone_iff_eq_none.mp missing, show (0 : Double) = .zero false by
    rfl]
  rfl

end Assessment

/-! ### Thresholds of zero -/

/-- The greatest product of points and percentage whose hundredth is rounded to zero: a little more
than fifty times the smallest double. -/
def vanishingLimit : Rat := 101 * (1 / 2 * smallestStep)

section Amount

variable {worth percent : Double} (finiteWorth : worth.isFinite = true) (worth_pos : 0 < worth)
  (finitePercent : percent.isFinite = true) (percent_pos : 0 < percent)
include finiteWorth worth_pos finitePercent percent_pos

theorem zero_le_mul : 0 ≤ worth * percent := by
  refine zero_le_of_rank (mul_ne_nan finiteWorth finitePercent) ?_
  rw [rank_mul finiteWorth finitePercent]
  exact nearestRank_nonneg (mul_pos (rank_pos_of_pos worth_pos) (rank_pos_of_pos percent_pos)).le

theorem zero_le_amountOfPercent : 0 ≤ amountOfPercent worth percent := by
  have nothing : (0 : Double) / 100 = 0 := by decide +kernel
  have product := zero_le_mul finiteWorth worth_pos finitePercent percent_pos
  exact nothing ▸ Double.div_le_div_right isFinite_hundred hundred_pos product

/-- **A positive percentage of positive points is zero only where their product is tiny.** -/
theorem amountOfPercent_le_zero_iff :
    amountOfPercent worth percent ≤ 0 ↔ worth.rank * percent.rank ≤ vanishingLimit := by
  have nonneg := zero_le_amountOfPercent finiteWorth worth_pos finitePercent percent_pos
  have product := rank_mul finiteWorth finitePercent
  have divided := lifts_div isFinite_hundred hundred_pos
  have least : nearestRank (nearestRank vanishingLimit / 100) = 0 := by decide +kernel
  rw [le_zero_iff nonneg]
  by_cases finite : (worth * percent).isFinite = true
  · rw [amountOfPercent, divided.rank_apply finite, product, rank_hundred]
    constructor
    · intro zero
      by_contra above
      have above := not_le.mp above
      -- the product is rounded up to 51 of the smallest steps, and a hundredth of them is not zero
      have steps := le_nearestRank_of_half_lt (n := 50) (by decide)
        (lt_of_eq_of_lt (by rw [vanishingLimit]; push_cast; ring) above)
      have hundredth : 1 / 2 * smallestStep < nearestRank (worth.rank * percent.rank) / 100 := by
        have pos := smallestStep_pos
        push_cast at steps
        linarith
      exact absurd zero (nearestRank_pos hundredth).ne'
    · intro small
      refine le_antisymm ?_ (nearestRank_nonneg (div_nonneg (product ▸ ?_) (by norm_num)))
      · rw [← least]
        exact nearestRank_mono (div_le_div_of_nonneg_right (nearestRank_mono small) (by norm_num))
      · exact rank_ofNat_zero ▸ (zero_le_mul finiteWorth worth_pos finitePercent percent_pos).2.2
  · have far := zero_le_mul finiteWorth worth_pos finitePercent percent_pos
    have infinite :=
      (isFinite_or_eq_infinity far.2.1 (rank_ofNat_zero ▸ far.2.2)).resolve_left finite
    rw [amountOfPercent, infinite]
    refine iff_of_false (by decide +kernel) fun small => ?_
    have bound := nearestRank_mono small
    rw [← product, infinite] at bound
    exact absurd bound (by decide +kernel)

end Amount

/-- The threshold of an assignment is rounded to zero: without rounding, or when it is rounded up,
only if the product is tiny; when it is rounded down, if it is less than one point; and at a decimal
place, if it is less than half a unit of that. -/
def Rounding.Forgives (rounding : Rounding) (worth percent : Double) : Prop :=
  match rounding with
  | identity => worth.rank * percent.rank ≤ vanishingLimit
  | decimals places => ((amountOfPercent worth percent).shiftPoint places.toInt).rank < 1 / 2
  | floor => amountOfPercent worth percent < 1
  | ceil => worth.rank * percent.rank ≤ vanishingLimit

instance (rounding : Rounding) (worth percent : Double) :
    Decidable (rounding.Forgives worth percent) :=
  match rounding with
  | .identity => inferInstanceAs (Decidable (_ ≤ _))
  | .decimals _ => inferInstanceAs (Decidable (_ < _))
  | .floor => inferInstanceAs (Decidable (_ < _))
  | .ceil => inferInstanceAs (Decidable (_ ≤ _))

/-! ### The rule -/

section Rule

variable {scope : Scope} {participant : Participant} {assignment : Assignment}

/-- **A missing assignment is passed exactly if its threshold is rounded to zero.** -/
theorem PassedAssignments.isPassed_iff_forgives (finiteWorth : assignment.maxPoints.isFinite = true)
    (worth_pos : 0 < assignment.maxPoints) (finitePercent : scope.requiredPercent.isFinite = true)
    (percent_pos : 0 < scope.requiredPercent)
    (missing : Assessment.isMissing participant.assessments assignment.id = true) :
    isPassed participant (threshold scope assignment) = true ↔
      scope.rounding.Forgives assignment.maxPoints scope.requiredPercent := by
  have amount := amountOfPercent_le_zero_iff finiteWorth worth_pos finitePercent percent_pos
  have nonneg := zero_le_amountOfPercent finiteWorth worth_pos finitePercent percent_pos
  have nothing : participant.pointsFor assignment.id = 0 :=
    Assessment.pointsFor_of_isMissing missing
  rw [isPassed, decide_eq_true_iff, threshold, nothing, scope.rounding.apply_le_zero_iff nonneg]
  cases scope.rounding with
  | identity => exact amount
  | decimals places => exact Iff.rfl
  | floor => exact Iff.rfl
  | ceil => exact amount

end Rule

namespace Rule

/-- **How many assignments a participant passes.**  A rule on passed assignments looks at a
participant for whom it counts.  Of the assignments with points those count that reach their
thresholds; of the missing ones those whose thresholds are rounded to zero, and only those.  For a
participant without any records these are all that count. -/
theorem passedCount_of_missing {criterion : Criterion} {assignments : List Assignment} {gate : Gate}
    {participant : Participant} (counts : criterion.kind = .passedAssignments)
    (built : ofCriterion criterion assignments = .ok (.gate gate))
    (included : participant.id ∉ criterion.ignoredParticipants)
    (finitePercent : criterion.requiredPercent.isFinite = true)
    (percent_pos : 0 < criterion.requiredPercent)
    (worth : ∀ assignment ∈ Assignment.ofCategory criterion.category assignments,
      assignment.maxPoints.isFinite = true ∧ 0 < assignment.maxPoints) :
    ∃ rounding, criterion.pointsRounding.rounding? = some rounding ∧
      let sheets := Assignment.ofCategory criterion.category assignments
      let missing := fun sheet : Assignment => Assessment.isMissing participant.assessments sheet.id
      let reached := fun sheet : Assignment => decide
        (rounding.apply (amountOfPercent sheet.maxPoints criterion.requiredPercent) ≤
          participant.pointsFor sheet.id)
      let forgiven := fun sheet : Assignment =>
        decide (rounding.Forgives sheet.maxPoints criterion.requiredPercent)
      (gate.check participant).achievedPoints =
        .ofNat ((sheets.filter (!missing ·)).countP reached +
          (sheets.filter missing).countP forgiven) ∧
      (participant.assessments = [] →
        (gate.check participant).achievedPoints = .ofNat (sheets.countP forgiven)) := by
  cases ofCriterion_eq_ok_iff.mp built with
  | overallPercent kind => cases counts.symm.trans kind
  | allowedFailures kind => cases counts.symm.trans kind
  | @passedAssignments scope percent countRounding kind given rounded stated =>
    obtain ⟨rounding, known, rfl⟩ := Scope.ofCriterion_eq_ok_iff.mp stated
    refine ⟨rounding, RoundingChoice.rounding?_of_toRounding known, ?_⟩
    intro sheets missing reached forgiven
    let scope : Scope := ⟨criterion.category, criterion.requiredPercent, rounding,
      criterion.ignoredParticipants⟩
    have shown : ((PassedAssignments.ofScope scope percent countRounding assignments).check
        participant).achievedPoints = .ofNat (sheets.countP reached) :=
      PassedAssignments.achievedPoints_of_counts included
    have alike : ∀ sheet ∈ sheets, missing sheet = true →
        (reached sheet = true ↔ forgiven sheet = true) := by
      intro sheet mem absent
      have passes : PassedAssignments.isPassed participant
          (PassedAssignments.threshold scope sheet) = true ↔ _ :=
        PassedAssignments.isPassed_iff_forgives (worth sheet mem).1 (worth sheet mem).2
          finitePercent percent_pos absent
      exact passes.trans decide_eq_true_iff.symm
    constructor
    · have absent : (sheets.filter missing).countP reached =
          (sheets.filter missing).countP forgiven :=
        List.countP_congr fun sheet mem =>
          alike sheet (List.mem_filter.mp mem).1 (List.mem_filter.mp mem).2
      refine shown.trans (congrArg Double.ofNat ?_)
      rw [List.countP_eq_countP_filter_add sheets reached missing, absent, Nat.add_comm]
    · intro empty
      have absent : ∀ sheet, missing sheet = true := fun sheet => by
        simp only [missing, empty]
        rfl
      exact shown.trans (congrArg Double.ofNat
        (List.countP_congr fun sheet mem => alike sheet mem (absent sheet)))

/-- Where the required half is rounded down, the sheet worth ten points is not passed without them,
but the one worth a single point is. -/
theorem demo_passedCount_of_missing :
    let half := { Criterion.plain .passedAssignments .homework 50 with
      pointsRounding := ⟨.floor, none⟩
      passedAssignmentsPercent := some 60 }
    let sheets := [Demo.evaluated "sheet-1" .homework 20, Demo.evaluated "sheet-2" .homework 10,
      Demo.evaluated "sheet-3" .homework 1]
    let ada := Demo.participant "ada" [("sheet-1", some 18), ("sheet-2", none)]
    let idle := Demo.participant "idle" []
    ∃ gate, ofCriterion half sheets = .ok (.gate gate) ∧
      (gate.check ada).achievedPoints = 2 ∧ (gate.check idle).achievedPoints = 1 := by
  intro half sheets ada idle
  have worth : ∀ assignment ∈ Assignment.ofCategory half.category sheets,
      assignment.maxPoints.isFinite = true ∧ 0 < assignment.maxPoints := by decide +kernel
  have finite : half.requiredPercent.isFinite = true := by decide +kernel
  have positive : 0 < half.requiredPercent := by decide +kernel
  have counts : half.kind = .passedAssignments := rfl
  have floored : half.pointsRounding.rounding? = some .floor := rfl
  have adaCounts : ada.id ∉ half.ignoredParticipants := List.not_mem_nil
  have idleCounts : idle.id ∉ half.ignoredParticipants := List.not_mem_nil
  refine ⟨_, rfl, ?_, ?_⟩
  · obtain ⟨rounding, known, count, -⟩ :=
      passedCount_of_missing counts rfl adaCounts finite positive worth
    cases Option.some.inj (known.symm.trans floored)
    exact count.trans (by decide +kernel)
  · obtain ⟨rounding, known, -, count⟩ :=
      passedCount_of_missing counts rfl idleCounts finite positive worth
    cases Option.some.inj (known.symm.trans floored)
    exact (count rfl).trans (by decide +kernel)

/-- **Nothing handed in can pass.**  Half of a single point is required and rounded down: a rule on
passed assignments counts the sheet as passed for a participant without any records, and is met; a
rule on every assignment counts the same sheet as failed. -/
theorem missing_passed :
    let half := { Criterion.plain .passedAssignments .homework 50 with
      pointsRounding := ⟨.floor, none⟩
      passedAssignmentsPercent := some 100
      allowedFailures := some 0 }
    let sheet := [Demo.evaluated "sheet-1" .homework 1]
    let idle := Demo.participant "idle" []
    ∃ gate every, ofCriterion half sheet = .ok (.gate gate) ∧
      ofCriterion { half with kind := .allowedFailures } sheet = .ok (.gate every) ∧
      (gate.check idle).achievedPoints = 1 ∧ (gate.check idle).passed = true ∧
      (every.check idle).achievedPoints = 1 ∧ (every.check idle).passed = false :=
  ⟨_, _, rfl, rfl, by decide +kernel, by decide +kernel, by decide +kernel, by decide +kernel⟩

end Rule

end ExamAdmission

/-
Where there is nothing to achieve, everybody is admitted.

Before any assignment of a category has been evaluated, the criteria on that category ask for
nothing.  Each kind of rule finds that out in its own way: the points of no assignments add up to
the negative zero, no assignment can be missed, and any share of no assignments is zero again,
however it is rounded:

* `Criterion.IsMetByNothing` — what such a criterion shows of a participant;
* `Rule.States.isMetByNothing` — each kind of rule shows it;
* `Ruleset.admits_of_nothing_to_achieve` — **so everybody is admitted**, whatever the criteria
  require.
-/
import ExamAdmission.Course.Demo
import ExamAdmission.Proofs.Rounding.Zero
import ExamAdmission.Proofs.Ruleset.Verdicts

namespace ExamAdmission

/-- The criterion is passed with no points and in full; where it counts failures, there are none,
and no part of the allowance is used up, unless the criterion does not count for the participant. -/
structure Criterion.IsMetByNothing (criterion : Criterion) (participant : Participant)
    (verdict : Verdict) : Prop where
  kind : verdict.kind = criterion.kind
  category : verdict.category = criterion.category
  passed : verdict.passed = true
  points : verdict.achievedPoints = 0
  percent : verdict.achievedPercent =
    if criterion.kind = .allowedFailures ∧ participant.id ∉ criterion.ignoredParticipants then 0
    else 100

/-! ### One rule -/

section Rules

variable {participant : Participant}

/-- Without assignments there are no points to achieve. -/
theorem OverallPercent.check_of_no_assignments {scope : Scope} {assignments : List Assignment}
    (counts : participant.id ∉ scope.ignored)
    (empty : Assignment.ofCategory scope.category assignments = []) :
    (ofScope scope assignments).check participant =
      scope.verdict .overallPercent true 0 100 (some noPointsComment) := by
  have worthless : (ofScope scope assignments).totalAchievable.isZero = true := by
    rw [ofScope, empty]
    rfl
  exact (if_neg counts).trans (if_pos worthless)

theorem AllowedFailures.usedPercent_zero (allowed : UInt32) : usedPercent 0 allowed = 0 := by
  unfold usedPercent
  split
  · rfl
  · next some_allowed =>
    have small : allowed.toNat ≤ 2 ^ 53 := allowed.toNat_lt.le.trans (by decide)
    have pos : 0 < allowed.toNat :=
      Nat.pos_of_ne_zero fun none => some_allowed (UInt32.toNat_inj.mp none)
    exact percentOf_zero (Double.isFinite_ofNat small) (Double.ofNat_pos small pos)

/-- Without assignments there are no failures. -/
theorem AllowedFailures.check_of_no_assignments {rule : AllowedFailures}
    (counts : participant.id ∉ rule.scope.ignored) (empty : rule.assignments = []) :
    rule.check participant = rule.scope.verdict .allowedFailures true 0 0 none := by
  have failures : rule.failures participant = 0 := by
    rw [AllowedFailures.failures, empty]
    rfl
  have allowance : (0 : UInt32) ≤ rule.allowed := UInt32.zero_le
  rw [check, if_neg counts, failures]
  dsimp only
  rw [usedPercent_zero, decide_eq_true allowance]
  rfl

/-- Without assignments none has to be passed, whatever share of them is required. -/
theorem PassedAssignments.check_of_no_assignments {scope : Scope} {assignments : List Assignment}
    {percent : Double} (countRounding : Rounding) (counts : participant.id ∉ scope.ignored)
    (finite : percent.isFinite = true)
    (empty : Assignment.ofCategory scope.category assignments = []) :
    (ofScope scope percent countRounding assignments).check participant =
      scope.verdict .passedAssignments true 0 100 none := by
  obtain ⟨negative, amount⟩ := exists_amountOfPercent_zero finite
  have required : (ofScope scope percent countRounding assignments).requiredCount =
      .zero negative := by
    rw [ofScope, empty]
    show countRounding.apply (amountOfPercent 0 percent) = _
    rw [amount, countRounding.apply_zero]
  have passed : (ofScope scope percent countRounding assignments).passedCount participant = 0 := by
    rw [ofScope, empty]
    rfl
  refine (if_neg counts).trans ?_
  dsimp only
  rw [required, passed]
  rfl

end Rules

namespace Rule.States

variable {criterion : Criterion} {assignments : List Assignment} {gate : Gate}

/-- What a stated rule that decides says where no assignments match it. -/
theorem check_of_no_assignments (h : States criterion assignments (.gate gate))
    (finite : ∀ share ∈ criterion.passedAssignmentsPercent, share.isFinite = true)
    (empty : Assignment.ofCategory gate.scope.category assignments = []) {participant : Participant}
    (counts : participant.id ∉ gate.scope.ignored) :
    ∃ comment, gate.check participant = gate.scope.verdict gate.kind true 0
      (if gate.kind = .allowedFailures then 0 else 100) comment := by
  cases h with
  | overallPercent => exact ⟨_, OverallPercent.check_of_no_assignments counts empty⟩
  | allowedFailures => exact ⟨_, AllowedFailures.check_of_no_assignments counts empty⟩
  | passedAssignments _ given =>
    exact ⟨_, PassedAssignments.check_of_no_assignments _ counts (finite _ given) empty⟩

/-- A stated rule that decides is met where no assignments match it. -/
theorem isMetByNothing (h : States criterion assignments (.gate gate))
    (finite : ∀ share ∈ criterion.passedAssignmentsPercent, share.isFinite = true)
    (empty : Assignment.ofCategory criterion.category assignments = [])
    (participant : Participant) : criterion.IsMetByNothing participant (gate.check participant) := by
  have category : gate.scope.category = criterion.category := h.category_eq
  have ignoring : gate.scope.ignored = criterion.ignoredParticipants := h.ignored_eq
  have kind : gate.kind = criterion.kind := h.kind_eq
  by_cases ignored : participant.id ∈ gate.scope.ignored
  · have exempt : ¬ (criterion.kind = .allowedFailures ∧
        participant.id ∉ criterion.ignoredParticipants) := fun unused =>
      unused.2 (ignoring ▸ ignored)
    rw [Gate.check_of_ignored ignored]
    exact ⟨kind, category, rfl, rfl, (if_neg exempt).symm⟩
  · obtain ⟨comment, said⟩ := h.check_of_no_assignments finite (category ▸ empty) ignored
    rw [said, kind]
    refine ⟨rfl, category, rfl, rfl, ?_⟩
    rw [← ignoring]
    exact if_congr (and_iff_left ignored).symm rfl rfl

end Rule.States

/-! ### All rules -/

namespace Ruleset

variable {criteria : List Criterion} {assignments : List Assignment} {ruleset : Ruleset}

/-- **Where there is nothing to achieve, everybody is admitted.**  As long as no evaluated
assignment has the category of a criterion that decides, every such criterion is passed by every
participant, with no points and in full, or with no failures: whatever the criteria require, allow
and round, and whatever assessments there are. -/
theorem admits_of_nothing_to_achieve (built : ofCriteria criteria assignments = .ok ruleset)
    (finite : ∀ criterion ∈ criteria, ∀ share ∈ criterion.passedAssignmentsPercent,
      share.isFinite = true)
    (nothing : ∀ criterion ∈ criteria, criterion.kind ≠ .individualPercent →
      ∀ assignment ∈ assignments, assignment.state = .evaluated →
        assignment.category ≠ criterion.category)
    (participant : Participant) :
    (ruleset.evaluate participant).hasAdmission = true ∧
    List.Forall₂ (fun criterion verdict => criterion.IsMetByNothing participant verdict)
      (criteria.filter (·.kind ≠ .individualPercent)) (ruleset.evaluate participant).results := by
  have verdicts : List.Forall₂ (fun criterion verdict =>
      criterion.IsMetByNothing participant verdict)
      (criteria.filter (·.kind ≠ .individualPercent)) (ruleset.evaluate participant).results := by
    have given : ∀ criterion ∈ criteria.filter Criterion.isGating,
        (∀ share ∈ criterion.passedAssignmentsPercent, share.isFinite = true) ∧
          Assignment.ofCategory criterion.category (Assignment.evaluated assignments) = [] := by
      intro criterion mem
      obtain ⟨mem, decides⟩ := List.mem_filter.mp mem
      refine ⟨finite criterion mem, List.filter_eq_nil_iff.mpr fun assignment counts own => ?_⟩
      obtain ⟨listed, evaluated⟩ := List.mem_filter.mp counts
      exact nothing criterion mem (of_decide_eq_true decides) assignment listed
        (of_decide_eq_true evaluated) (of_decide_eq_true own)
    rw [evaluate_eq_gates]
    refine List.forall₂_map_right_iff.mpr ?_
    refine ((List.forall₂_and_left _ _).mpr ⟨given, gates_stated built⟩).imp ?_
    rintro criterion gate ⟨⟨finite, empty⟩, stated⟩
    exact stated.isMetByNothing finite empty participant
  refine ⟨?_, verdicts⟩
  refine (Status.hasAdmission_iff participant.id _).mpr fun verdict mem => ?_
  obtain ⟨criterion, -, met⟩ := exists_of_forall₂ verdicts mem
  exact met.passed

/-- In the demo course, as long as sheet-4 is in review and nothing else but a visit to the library
has been evaluated, brendan is admitted without points, although one criterion rounds the number of
sheets to be passed up. -/
theorem demo_admits_of_nothing_to_achieve :
    let assignments := [{ Demo.evaluated "sheet-4" .homework 20 with state := .inReview },
      Demo.evaluated "library" .other 5]
    let brendan := Demo.participant "brendan" [("sheet-4", some 10), ("library", some 0)]
    ∃ ruleset, ofCriteria Demo.criteria assignments = .ok ruleset ∧
      (ruleset.evaluate brendan).hasAdmission = true ∧
      List.Forall₂ (fun criterion verdict => criterion.IsMetByNothing brendan verdict)
        (Demo.criteria.take 3) (ruleset.evaluate brendan).results := by
  intro assignments brendan
  have finite : ∀ criterion ∈ Demo.criteria, ∀ share ∈ criterion.passedAssignmentsPercent,
      share.isFinite = true := by decide +kernel
  have nothing : ∀ criterion ∈ Demo.criteria, criterion.kind ≠ .individualPercent →
      ∀ assignment ∈ assignments, assignment.state = .evaluated →
        assignment.category ≠ criterion.category := by decide
  refine ⟨_, rfl, ?_⟩
  exact admits_of_nothing_to_achieve rfl finite nothing brendan

end Ruleset

end ExamAdmission

/-
What a built set of rules answers about a participant.

Each deciding criterion has exactly one verdict and each informing one exactly one breakdown, in the
order of the criteria:

* `Ruleset.forall₂_results` — the verdicts, position by position;
* `Ruleset.forall₂_breakdown` — the breakdowns, position by position;
* `Status.hasAdmission_iff`, `Status.hasAdmission_iff_failed` — admission is that no verdict fails;
* `Ruleset.evaluate_covers_criteria` — all of it together: no criterion's verdict is lost, admission
  is never granted without one, and criteria that only inform have no part in it.
-/
import ExamAdmission.Course.Demo
import ExamAdmission.Proofs.Rule.Construction

namespace ExamAdmission

/-! ### What one rule says -/

@[simp] theorem Gate.check_kind (gate : Gate) (participant : Participant) :
    (gate.check participant).kind = gate.kind := by
  cases gate with
  | overallPercent rule =>
    simp only [Gate.check, OverallPercent.check]
    split
    · rfl
    · split <;> rfl
  | allowedFailures rule =>
    simp only [Gate.check, AllowedFailures.check]
    split <;> rfl
  | passedAssignments rule =>
    simp only [Gate.check, PassedAssignments.check]
    split
    · rfl
    · split <;> rfl

@[simp] theorem Gate.check_category (gate : Gate) (participant : Participant) :
    (gate.check participant).category = gate.scope.category := by
  cases gate with
  | overallPercent rule =>
    simp only [Gate.check, OverallPercent.check]
    split
    · rfl
    · split <;> rfl
  | allowedFailures rule =>
    simp only [Gate.check, AllowedFailures.check]
    split <;> rfl
  | passedAssignments rule =>
    simp only [Gate.check, PassedAssignments.check]
    split
    · rfl
    · split <;> rfl

/-- A rule that does not count for a participant says so, whatever its kind. -/
theorem Gate.check_of_ignored {gate : Gate} {participant : Participant}
    (ignored : participant.id ∈ gate.scope.ignored) :
    gate.check participant = gate.scope.ignoredVerdict gate.kind := by
  cases gate with
  | overallPercent rule => exact if_pos ignored
  | allowedFailures rule => exact if_pos ignored
  | passedAssignments rule => exact if_pos ignored

@[simp] theorem IndividualPercent.check_kind (rule : IndividualPercent)
    (participant : Participant) : (rule.check participant).kind = .individualPercent := by
  simp only [check]
  split <;> rfl

@[simp] theorem IndividualPercent.check_category (rule : IndividualPercent)
    (participant : Participant) : (rule.check participant).category = rule.scope.category := by
  simp only [check]
  split <;> rfl

theorem IndividualPercent.check_assignments (rule : IndividualPercent)
    (participant : Participant) :
    (rule.check participant).assignments = rule.assignments.map (·.id) := by
  simp only [check]
  split <;> rfl

/-- All lists have as many entries as there are assignments. -/
theorem IndividualPercent.length_check (rule : IndividualPercent) (participant : Participant) :
    (rule.check participant).achievedPoints.length = rule.assignments.length ∧
      (rule.check participant).achievedPercent.length = rule.assignments.length ∧
      (rule.check participant).passed.length = rule.assignments.length := by
  simp only [check]
  split
  · simp only [List.length_map, and_self]
  · simp only [List.length_map, and_self]

/-- The verdict is what the rule of the criterion says about the participant. -/
structure IsVerdictOf (assignments : List Assignment) (participant : Participant)
    (criterion : Criterion) (verdict : Verdict) : Prop where
  kind : verdict.kind = criterion.kind
  category : verdict.category = criterion.category
  said : ∃ rule, Rule.ofCriterion criterion assignments = .ok rule ∧
    rule.check participant = .verdict verdict

/-- The breakdown is what the rule of the criterion says about the participant. -/
structure IsBreakdownOf (assignments : List Assignment) (participant : Participant)
    (criterion : Criterion) (breakdown : Breakdown) : Prop where
  kind : breakdown.kind = criterion.kind
  category : breakdown.category = criterion.category
  said : ∃ rule, Rule.ofCriterion criterion assignments = .ok rule ∧
    rule.check participant = .breakdown breakdown

theorem Rule.States.isVerdictOf {criterion : Criterion} {assignments : List Assignment}
    {gate : Gate} (h : Rule.States criterion assignments (.gate gate))
    (participant : Participant) :
    IsVerdictOf assignments participant criterion (gate.check participant) where
  kind := (gate.check_kind participant).trans h.kind_eq
  category := (gate.check_category participant).trans h.category_eq
  said := ⟨_, Rule.ofCriterion_eq_ok_iff.mpr h, rfl⟩

theorem Rule.States.isBreakdownOf {criterion : Criterion} {assignments : List Assignment}
    {listing : IndividualPercent} (h : Rule.States criterion assignments (.listing listing))
    (participant : Participant) :
    IsBreakdownOf assignments participant criterion (listing.check participant) where
  kind := (listing.check_kind participant).trans h.kind_eq
  category := (listing.check_category participant).trans h.category_eq
  said := ⟨_, Rule.ofCriterion_eq_ok_iff.mpr h, rfl⟩

/-! ### Admission -/

namespace Status

/-- Admission is that every verdict passes. -/
theorem hasAdmission_iff (participant : ParticipantId) (results : List Verdict) :
    (ofVerdicts participant results).hasAdmission = true ↔
      ∀ verdict ∈ results, verdict.passed = true :=
  List.all_eq_true

/-- Admission is that no verdict is found to fail. -/
theorem hasAdmission_iff_failed (participant : ParticipantId) (results : List Verdict) :
    (ofVerdicts participant results).hasAdmission = true ↔
      (ofVerdicts participant results).failed = [] := by
  rw [hasAdmission_iff, failed, List.filter_eq_nil_iff]
  simp [ofVerdicts]

end Status

/-! ### What a set of rules says -/

/-- The criteria that do not decide are those that ask for a list. -/
theorem Criterion.filter_not_isGating (criteria : List Criterion) :
    criteria.filter (!·.isGating) = criteria.filter (·.kind = .individualPercent) := by
  congr 1
  funext criterion
  simp [isGating]

namespace Ruleset

variable {criteria : List Criterion} {assignments : List Assignment} {ruleset : Ruleset}

/-- Every deciding criterion has its verdict, in order. -/
theorem forall₂_results (built : ofCriteria criteria assignments = .ok ruleset)
    (participant : Participant) :
    List.Forall₂ (IsVerdictOf (Assignment.evaluated assignments) participant)
      (criteria.filter Criterion.isGating) (ruleset.evaluate participant).results := by
  rw [evaluate_eq_gates]
  refine List.forall₂_map_right_iff.mpr ((gates_stated built).imp ?_)
  intro criterion gate h
  exact h.isVerdictOf participant

/-- Every informing criterion has its breakdown, in order. -/
theorem forall₂_breakdown (built : ofCriteria criteria assignments = .ok ruleset)
    (participant : Participant) :
    List.Forall₂ (IsBreakdownOf (Assignment.evaluated assignments) participant)
      (criteria.filter (!·.isGating)) (ruleset.breakdown participant) := by
  rw [breakdown_eq_listings]
  refine List.forall₂_map_right_iff.mpr ((listings_stated built).imp ?_)
  intro criterion listing h
  exact h.isBreakdownOf participant

theorem results_ne_nil (built : ofCriteria criteria assignments = .ok ruleset)
    (participant : Participant) : (ruleset.evaluate participant).results ≠ [] := by
  rw [evaluate_eq_gates]
  exact fun h => gates_ne_nil built (List.map_eq_nil_iff.mp h)

/-- **Every deciding criterion has its verdict.**  The status of a participant carries the
participant's identifier and one verdict for each deciding criterion, in order; there is at least
one, and admission is that all pass, or that none is found to fail.  Each informing criterion has
its breakdown, in order, and adding or taking away such criteria changes no status. -/
theorem evaluate_covers_criteria (built : ofCriteria criteria assignments = .ok ruleset)
    (participant : Participant) :
    (ruleset.evaluate participant).participant = participant.id ∧
    List.Forall₂ (IsVerdictOf (Assignment.evaluated assignments) participant)
      (criteria.filter (·.kind ≠ .individualPercent)) (ruleset.evaluate participant).results ∧
    (ruleset.evaluate participant).results ≠ [] ∧
    ((ruleset.evaluate participant).hasAdmission = true ↔
      ∀ verdict ∈ (ruleset.evaluate participant).results, verdict.passed = true) ∧
    ((ruleset.evaluate participant).hasAdmission = true ↔
      (ruleset.evaluate participant).failed = []) ∧
    List.Forall₂ (IsBreakdownOf (Assignment.evaluated assignments) participant)
      (criteria.filter (·.kind = .individualPercent)) (ruleset.breakdown participant) ∧
    ∀ others other, ofCriteria others assignments = .ok other →
      others.filter (·.kind ≠ .individualPercent) =
        criteria.filter (·.kind ≠ .individualPercent) →
      other.evaluate participant = ruleset.evaluate participant := by
  refine ⟨rfl, forall₂_results built participant, results_ne_nil built participant,
    Status.hasAdmission_iff _ _, Status.hasAdmission_iff_failed _ _, ?_, ?_⟩
  · rw [← Criterion.filter_not_isGating]
    exact forall₂_breakdown built participant
  · intro others other builtOther same
    rw [evaluate_eq_gates, evaluate_eq_gates, gates_eq_of_filter_eq built builtOther same]

theorem exists_of_demo :
    ∃ ruleset, ofCriteria Demo.criteria Demo.course.assignments = .ok ruleset := ⟨_, rfl⟩

/-- The demo course has three deciding criteria and an informing one. -/
theorem demo_covers_criteria :
    ∃ ruleset, ofCriteria Demo.course.criteria Demo.course.assignments = .ok ruleset ∧
      ∀ participant,
        List.Forall₂ (IsVerdictOf (Assignment.evaluated Demo.course.assignments) participant)
          (Demo.criteria.take 3) (ruleset.evaluate participant).results ∧
        List.Forall₂ (IsBreakdownOf (Assignment.evaluated Demo.course.assignments) participant)
          (Demo.criteria.drop 3) (ruleset.breakdown participant) := by
  obtain ⟨ruleset, built⟩ := exists_of_demo
  refine ⟨ruleset, built, fun participant => ?_⟩
  obtain ⟨-, results, -, -, -, breakdowns, -⟩ := evaluate_covers_criteria built participant
  exact ⟨results, breakdowns⟩

end Ruleset

end ExamAdmission

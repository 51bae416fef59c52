/-
What the answers about a course depend on.

Two runs are compared, over catalogues with the same evaluated assignments and on participants with
the same points for them.  Every rule sees no more than that, so whatever is asked, the answers are
the same:

* `Rule.ofCriterion_congr` — a rule is built from the assignments of its own category;
* `Rule.States.check_congr` — what it says depends on the points for these, and on whether it counts
  for the participant;
* `sameAnswers_of_agrees` — the rules, the statuses, the breakdowns and the table of points are the
  same;
* `Ruleset.answers_depend_on_counting` — all of it together: what does not count, and edits of it,
  never change an answer.
-/
import ExamAdmission.Course.Demo
import ExamAdmission.PointsTable
import ExamAdmission.Proofs.Course.Assessments
import ExamAdmission.Proofs.Rule.Construction

namespace ExamAdmission

/-- The same participant, with the same points for these assignments. -/
structure Agrees (assignments : List Assignment) (participant other : Participant) : Prop where
  same : other.id = participant.id
  points : ∀ assignment ∈ assignments,
    participant.pointsFor assignment.id = other.pointsFor assignment.id

/-- The answers over two catalogues about two lists of participants are the same: the rules or the
error they are rejected with, everybody's status and breakdown, and the table of points. -/
structure SameAnswers (criteria : List Criterion) (assignments others : List Assignment)
    (participants otherParticipants : List Participant) : Prop where
  rules : Ruleset.ofCriteria criteria assignments = Ruleset.ofCriteria criteria others
  statuses : ∀ ruleset, Ruleset.ofCriteria criteria assignments = .ok ruleset →
    List.Forall₂ (fun participant other => ruleset.evaluate participant = ruleset.evaluate other)
      participants otherParticipants
  breakdowns : ∀ ruleset, Ruleset.ofCriteria criteria assignments = .ok ruleset →
    List.Forall₂ (fun participant other => ruleset.breakdown participant = ruleset.breakdown other)
      participants otherParticipants
  table : PointsTable.compute assignments participants =
    PointsTable.compute others otherParticipants

variable {criterion : Criterion} {criteria : List Criterion} {assignments others : List Assignment}
  {participant other : Participant}

/-! ### What a rule is built from -/

theorem Scope.category_eq {scope : Scope} (stated : Scope.ofCriterion criterion = .ok scope) :
    scope.category = criterion.category := by
  obtain ⟨rounding, -, rfl⟩ := Scope.ofCriterion_eq_ok_iff.mp stated
  rfl

/-- A rule is built from the assignments of the category of its criterion. -/
theorem Rule.ofCriterion_congr
    (same : Assignment.ofCategory criterion.category assignments =
      Assignment.ofCategory criterion.category others) :
    ofCriterion criterion assignments = ofCriterion criterion others := by
  cases stated : Scope.ofCriterion criterion with
  | error e =>
    -- the assignments are not looked at before the scope
    unfold ofCriterion
    rw [stated]
    rfl
  | ok scope =>
    rw [← Scope.category_eq stated] at same
    unfold ofCriterion OverallPercent.ofScope PassedAssignments.ofScope
    rw [stated]
    simp only [bind, Except.bind, same]

/-! ### What a rule says -/

theorem OverallPercent.check_congr {rule : OverallPercent}
    (ignored : participant.id ∈ rule.scope.ignored ↔ other.id ∈ rule.scope.ignored)
    (points : ∀ id ∈ rule.assignments, participant.pointsFor id = other.pointsFor id) :
    rule.check participant = rule.check other := by
  rw [check, check, List.map_congr_left points]
  simp only [ignored]

theorem AllowedFailures.check_congr {rule : AllowedFailures}
    (ignored : participant.id ∈ rule.scope.ignored ↔ other.id ∈ rule.scope.ignored)
    (points : ∀ assignment ∈ rule.assignments,
      participant.pointsFor assignment.id = other.pointsFor assignment.id) :
    rule.check participant = rule.check other := by
  have counted : rule.failures participant = rule.failures other := by
    rw [failures, failures]
    congr 1
    refine List.countP_congr fun assignment mem => ?_
    rw [isFailed, isFailed, points assignment mem]
  rw [check, check, counted]
  simp only [ignored]

theorem PassedAssignments.check_congr {rule : PassedAssignments}
    (ignored : participant.id ∈ rule.scope.ignored ↔ other.id ∈ rule.scope.ignored)
    (points : ∀ threshold ∈ rule.thresholds,
      participant.pointsFor threshold.assignment = other.pointsFor threshold.assignment) :
    rule.check participant = rule.check other := by
  have counted : rule.passedCount participant = rule.passedCount other := by
    refine List.countP_congr fun threshold mem => ?_
    rw [isPassed, isPassed, points threshold mem]
  rw [check, check, counted]
  simp only [ignored]

theorem IndividualPercent.check_congr {rule : IndividualPercent}
    (ignored : participant.id ∈ rule.scope.ignored ↔ other.id ∈ rule.scope.ignored)
    (points : ∀ assignment ∈ rule.assignments,
      participant.pointsFor assignment.id = other.pointsFor assignment.id) :
    rule.check participant = rule.check other := by
  have percents : ∀ assignment ∈ rule.assignments,
      rule.percent participant assignment = rule.percent other assignment := by
    intro assignment mem
    rw [percent, percent, points assignment mem]
  have listed : (rule.assignments.map (·.id)).map participant.pointsFor =
      (rule.assignments.map (·.id)).map other.pointsFor := by
    rw [List.map_map, List.map_map]
    exact List.map_congr_left points
  have passed : rule.assignments.map (fun assignment =>
        decide (rule.scope.requiredPercent ≤ rule.percent participant assignment)) =
      rule.assignments.map (fun assignment =>
        decide (rule.scope.requiredPercent ≤ rule.percent other assignment)) := by
    refine List.map_congr_left fun assignment mem => ?_
    rw [percents assignment mem]
  rw [check, check]
  simp only [ignored, listed, passed, List.map_congr_left percents]

/-- What a stated rule says depends on the points for the assignments of its category, and on
whether it counts for the participant. -/
theorem Rule.States.check_congr {rule : Rule} (stated : States criterion assignments rule)
    (ignored : participant.id ∈ criterion.ignoredParticipants ↔
      other.id ∈ criterion.ignoredParticipants)
    (points : ∀ assignment ∈ Assignment.ofCategory criterion.category assignments,
      participant.pointsFor assignment.id = other.pointsFor assignment.id) :
    rule.check participant = rule.check other := by
  -- in terms of the scope of the rule, the same for every kind
  obtain ⟨rounding, -, hscope⟩ := Scope.ofCriterion_eq_ok_iff.mp stated.scope_stated
  rw [← stated.category_eq] at points
  have ignored : participant.id ∈ rule.scope.ignored ↔ other.id ∈ rule.scope.ignored := by
    rwa [hscope]
  cases stated with
  | overallPercent =>
    refine congrArg Finding.verdict (OverallPercent.check_congr ignored ?_)
    intro id mem
    obtain ⟨assignment, hmem, rfl⟩ := List.mem_map.mp mem
    exact points assignment hmem
  | allowedFailures => exact congrArg Finding.verdict (AllowedFailures.check_congr ignored points)
  | passedAssignments =>
    refine congrArg Finding.verdict (PassedAssignments.check_congr ignored ?_)
    intro threshold mem
    obtain ⟨assignment, hmem, rfl⟩ := List.mem_map.mp mem
    exact points assignment hmem
  | individualPercent =>
    exact congrArg Finding.breakdown (IndividualPercent.check_congr ignored points)

/-! ### All answers -/

namespace Agrees

/-- No rule tells participants apart that agree on the assignments that count. -/
theorem check_eq (agrees : Agrees (Assignment.evaluated assignments) participant other)
    {ruleset : Ruleset} (built : Ruleset.ofCriteria criteria assignments = .ok ruleset)
    {rule : Rule} (mem : rule ∈ ruleset.rules) : rule.check participant = rule.check other := by
  obtain ⟨criterion, stated⟩ := Ruleset.exists_stated_of_mem built mem
  refine stated.check_congr (by rw [agrees.same]) fun assignment hmem => ?_
  exact agrees.points assignment (Assignment.mem_ofCategory.mp hmem).1

theorem evaluate_eq (agrees : Agrees (Assignment.evaluated assignments) participant other)
    {ruleset : Ruleset} (built : Ruleset.ofCriteria criteria assignments = .ok ruleset) :
    ruleset.evaluate participant = ruleset.evaluate other := by
  rw [Ruleset.evaluate, Ruleset.evaluate, agrees.same]
  congr 1
  refine List.filterMap_congr fun rule mem => ?_
  rw [agrees.check_eq built (List.mem_of_mem_filter mem)]

theorem breakdown_eq (agrees : Agrees (Assignment.evaluated assignments) participant other)
    {ruleset : Ruleset} (built : Ruleset.ofCriteria criteria assignments = .ok ruleset) :
    ruleset.breakdown participant = ruleset.breakdown other := by
  refine List.filterMap_congr fun rule mem => ?_
  rw [agrees.check_eq built (List.mem_of_mem_filter mem)]

theorem row_eq (agrees : Agrees assignments participant other) :
    PointsTable.row assignments participant = PointsTable.row assignments other := by
  rw [PointsTable.row, PointsTable.row, agrees.same, List.map_congr_left agrees.points]

end Agrees

/-- Catalogues with the same evaluated assignments give the same answers about participants who
agree on these. -/
theorem sameAnswers_of_agrees {participants otherParticipants : List Participant}
    (same : Assignment.evaluated assignments = Assignment.evaluated others)
    (agree : List.Forall₂ (Agrees (Assignment.evaluated assignments)) participants
      otherParticipants) :
    SameAnswers criteria assignments others participants otherParticipants where
  rules := by rw [Ruleset.ofCriteria, Ruleset.ofCriteria, same]
  statuses ruleset built := agree.imp fun _ _ agrees => agrees.evaluate_eq built
  breakdowns ruleset built := agree.imp fun _ _ agrees => agrees.breakdown_eq built
  table := by
    have rows : participants.map (PointsTable.row (Assignment.evaluated assignments)) =
        otherParticipants.map (PointsTable.row (Assignment.evaluated assignments)) := by
      rw [← List.forall₂_eq_eq_eq, List.forall₂_map_left_iff, List.forall₂_map_right_iff]
      exact agree.imp fun _ _ agrees => agrees.row_eq
    rw [PointsTable.compute, PointsTable.compute, ← same, rows]

namespace Ruleset

/-- **No answer depends on data that does not count.**  Over catalogues with the same evaluated
assignments, and for participants with the same points for these, all answers are the same.  Each
single rule sees even less: the evaluated assignments of its category, the points for these, and
whether it counts for the participant.  So no answer is changed by editing what is not evaluated,
not known, or superseded, or by reordering assessments of different assignments. -/
theorem answers_depend_on_counting (criteria : List Criterion) :
    (∀ assignments others participants otherParticipants,
      Assignment.evaluated assignments = Assignment.evaluated others →
      List.Forall₂ (Agrees (Assignment.evaluated assignments)) participants otherParticipants →
      SameAnswers criteria assignments others participants otherParticipants) ∧
    (∀ (criterion : Criterion) assignments others,
      Assignment.ofCategory criterion.category (Assignment.evaluated assignments) =
        Assignment.ofCategory criterion.category (Assignment.evaluated others) →
      Rule.ofCriterion criterion (Assignment.evaluated assignments) =
        Rule.ofCriterion criterion (Assignment.evaluated others) ∧
      ∀ rule (participant other : Participant),
        Rule.ofCriterion criterion (Assignment.evaluated assignments) = .ok rule →
        (participant.id ∈ criterion.ignoredParticipants ↔
          other.id ∈ criterion.ignoredParticipants) →
        (∀ assignment ∈
            Assignment.ofCategory criterion.category (Assignment.evaluated assignments),
          participant.pointsFor assignment.id = other.pointsFor assignment.id) →
        rule.check participant = rule.check other) ∧
    (∀ assignments others participants otherParticipants,
      Relation.EqvGen Assignment.Edit assignments others →
      List.Forall₂ (fun participant other => other.id = participant.id ∧
          Relation.EqvGen (Assessment.Edit (Assignment.evaluated assignments))
            participant.assessments other.assessments)
        participants otherParticipants →
      SameAnswers criteria assignments others participants otherParticipants) := by
  refine ⟨?_, ?_, ?_⟩
  · intro assignments others participants otherParticipants same agree
    exact sameAnswers_of_agrees same agree
  · intro criterion assignments others same
    refine ⟨Rule.ofCriterion_congr same, ?_⟩
    intro rule participant other built ignored points
    exact (Rule.ofCriterion_eq_ok_iff.mp built).check_congr ignored points
  · intro assignments others participants otherParticipants edits edited
    refine sameAnswers_of_agrees (Assignment.evaluated_eq_of_edits edits) (edited.imp ?_)
    rintro participant other ⟨same, records⟩
    exact ⟨same, fun assignment counts => Assessment.pointsFor_eq_of_edits records counts⟩

/-- A sheet that is not evaluated is added to the demo course, and the assessments of a participant
are exchanged, one of them entered once more, and one of an unknown assignment added. -/
theorem demo_answers_depend_on_counting :
    SameAnswers Demo.criteria Demo.course.assignments
      (Demo.course.assignments ++ [⟨"sheet-5", .homework, 20, .published⟩])
      [⟨"ada", [⟨"sheet-1", some 18⟩, ⟨"talk", some 8⟩]⟩]
      [⟨"ada", [⟨"talk", some 3⟩, ⟨"bonus", some 5⟩, ⟨"talk", some 8⟩, ⟨"sheet-1", some 18⟩]⟩] := by
  obtain ⟨-, -, edited⟩ := answers_depend_on_counting Demo.criteria
  refine edited _ _ _ _ ?_ (.cons ⟨rfl, ?_⟩ .nil)
  · exact .rel _ _ (.unevaluated Demo.course.assignments [] _ (by decide))
  · refine .trans _ [⟨"talk", some 8⟩, ⟨"sheet-1", some 18⟩] _ ?_ (.trans _
      [⟨"talk", some 3⟩, ⟨"talk", some 8⟩, ⟨"sheet-1", some 18⟩] _ ?_ ?_)
    · exact .rel _ _ (.exchanged [] [] ⟨"sheet-1", some 18⟩ ⟨"talk", some 8⟩ (by decide))
    · exact .rel _ _ (.superseded [] [⟨"talk", some 8⟩, ⟨"sheet-1", some 18⟩] ⟨"talk", some 3⟩
        ⟨_, List.mem_cons_self, rfl⟩)
    · exact .rel _ _ (.unknown [⟨"talk", some 3⟩] [⟨"talk", some 8⟩, ⟨"sheet-1", some 18⟩]
        ⟨"bonus", some 5⟩ (by decide))

end Ruleset

end ExamAdmission

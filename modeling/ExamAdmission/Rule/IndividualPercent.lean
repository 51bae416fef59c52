/-
Lists of what was achieved on every assignment, for information.
-/
import ExamAdmission.Rule.Scope

namespace ExamAdmission

/-- A rule that lists every assignment and decides nothing. -/
structure IndividualPercent where
  scope : Scope
  assignments : List Assignment

namespace IndividualPercent

/-- The percentage achieved on an assignment. -/
def percent (rule : IndividualPercent) (participant : Participant) (assignment : Assignment) :
    Double :=
  rule.scope.assignmentPercent (participant.pointsFor assignment.id) assignment.maxPoints

/-- The list for a participant; all passed for one for whom the rule does not count. -/
def check (rule : IndividualPercent) (participant : Participant) : Breakdown :=
  let ids := rule.assignments.map (·.id)
  if participant.id ∈ rule.scope.ignored then
    { kind := .individualPercent
      category := rule.scope.category
      assignments := ids
      achievedPoints := rule.assignments.map fun _ => 0
      achievedPercent := rule.assignments.map fun _ => 100
      passed := rule.assignments.map fun _ => true
      comment := some Scope.ignoredComment }
  else
    { kind := .individualPercent
      category := rule.scope.category
      assignments := ids
      achievedPoints := ids.map participant.pointsFor
      achievedPercent := rule.assignments.map (rule.percent participant)
      passed := rule.assignments.map fun assignment =>
        rule.scope.requiredPercent ≤ rule.percent participant assignment
      comment := none }

end IndividualPercent

end ExamAdmission

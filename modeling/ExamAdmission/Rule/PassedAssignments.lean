/-
Rules on the number of passed assignments: a share of the assignments has to be passed, each by
reaching a share of its points.  What has to be reached is worked out once, as thresholds in points
and as a number of assignments.  The verdict shows the number of passed assignments where others
show points.
-/
import ExamAdmission.Rule.Scope

namespace ExamAdmission

/-- The points that pass one assignment. -/
structure Threshold where
  assignment : AssignmentId
  requiredPoints : Double

/-- A rule on the number of passed assignments. -/
structure PassedAssignments where
  scope : Scope
  thresholds : List Threshold
  /-- How many assignments have to be passed. -/
  requiredCount : Double

namespace PassedAssignments

/-- The threshold of an assignment: the required percentage of its points, rounded. -/
def threshold (scope : Scope) (assignment : Assignment) : Threshold where
  assignment := assignment.id
  requiredPoints :=
    scope.rounding.apply (amountOfPercent assignment.maxPoints scope.requiredPercent)

/-- The rule for the matching assignments, of which `percent` percent have to be passed. -/
def ofScope (scope : Scope) (percent : Double) (countRounding : Rounding)
    (assignments : List Assignment) : PassedAssignments :=
  let matching := Assignment.ofCategory scope.category assignments
  { scope := scope
    thresholds := matching.map (threshold scope)
    requiredCount := countRounding.apply (amountOfPercent (.ofNat matching.length) percent) }

/-- The points that pass an assignment, if it is one of the rule's. -/
def requiredPoints? (rule : PassedAssignments) (assignment : AssignmentId) : Option Double :=
  (rule.thresholds.find? (·.assignment = assignment)).map (·.requiredPoints)

/-- The participant reaches a threshold. -/
def isPassed (participant : Participant) (threshold : Threshold) : Bool :=
  threshold.requiredPoints ≤ participant.pointsFor threshold.assignment

/-- The number of assignments that the participant passed. -/
def passedCount (rule : PassedAssignments) (participant : Participant) : Nat :=
  rule.thresholds.countP (isPassed participant)

/-- The verdict on a participant.  Where no assignment has to be passed, the rule is met. -/
def check (rule : PassedAssignments) (participant : Participant) : Verdict :=
  if participant.id ∈ rule.scope.ignored then rule.scope.ignoredVerdict .passedAssignments
  else
    let count : Double := .ofNat (rule.passedCount participant)
    if rule.requiredCount.isZero then
      rule.scope.verdict .passedAssignments true count 100 none
    else
      rule.scope.verdict .passedAssignments (rule.requiredCount ≤ count) count
        (percentOf count rule.requiredCount) none

end PassedAssignments

end ExamAdmission

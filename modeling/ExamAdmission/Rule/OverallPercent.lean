/-
Rules on all points together: the points achieved on all assignments have to reach a share of what
the assignments are worth.
-/
import ExamAdmission.Rule.Scope

namespace ExamAdmission

/-- A rule on all points together. -/
structure OverallPercent where
  scope : Scope
  assignments : List AssignmentId
  /-- What the assignments are worth together. -/
  totalAchievable : Double

namespace OverallPercent

/-- The comment on a rule whose assignments are worth nothing. -/
def noPointsComment : String := "No achievable points."

/-- The rule for the matching assignments. -/
def ofScope (scope : Scope) (assignments : List Assignment) : OverallPercent :=
  let matching := Assignment.ofCategory scope.category assignments
  { scope := scope
    assignments := matching.map (·.id)
    totalAchievable := Double.sum (matching.map (·.maxPoints)) }

/-- The verdict on a participant.  Where nothing can be achieved, nothing is required. -/
def check (rule : OverallPercent) (participant : Participant) : Verdict :=
  if participant.id ∈ rule.scope.ignored then rule.scope.ignoredVerdict .overallPercent
  else if rule.totalAchievable.isZero then
    rule.scope.verdict .overallPercent true 0 100 (some noPointsComment)
  else
    let achieved := Double.sum (rule.assignments.map participant.pointsFor)
    let percent := rule.scope.rounding.apply (percentOf achieved rule.totalAchievable)
    rule.scope.verdict .overallPercent (rule.scope.requiredPercent ≤ percent) achieved percent none

end OverallPercent

end ExamAdmission

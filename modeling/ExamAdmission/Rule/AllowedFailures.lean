/-
Rules on every assignment, some of which may be missed: each assignment has to reach a share of its
points, but a number of them may stay below.  The verdict shows the number of failures where others
show points.
-/
import ExamAdmission.Rule.Scope

namespace ExamAdmission

/-- A rule on every assignment, some of which may be missed. -/
structure AllowedFailures where
  scope : Scope
  assignments : List Assignment
  /-- How many assignments may be missed. -/
  allowed : UInt32

namespace AllowedFailures

/-- The participant misses the required percentage of an assignment. -/
def isFailed (rule : AllowedFailures) (participant : Participant) (assignment : Assignment) :
    Bool :=
  rule.scope.assignmentPercent (participant.pointsFor assignment.id) assignment.maxPoints <
    rule.scope.requiredPercent

/-- The number of assignments that the participant missed, counted in 32 bits. -/
def failures (rule : AllowedFailures) (participant : Participant) : UInt32 :=
  UInt32.ofNat (rule.assignments.countP (rule.isFailed participant))

/-- How much of the allowance is used up, in percent. -/
def usedPercent (failures allowed : UInt32) : Double :=
  if allowed = 0 then if failures = 0 then 0 else 100
  else percentOf (.ofNat failures.toNat) (.ofNat allowed.toNat)

/-- The verdict on a participant. -/
def check (rule : AllowedFailures) (participant : Participant) : Verdict :=
  if participant.id ∈ rule.scope.ignored then rule.scope.ignoredVerdict .allowedFailures
  else
    let failures := rule.failures participant
    rule.scope.verdict .allowedFailures (failures ≤ rule.allowed) (.ofNat failures.toNat)
      (usedPercent failures rule.allowed) none

end AllowedFailures

end ExamAdmission

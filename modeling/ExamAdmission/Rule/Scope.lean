/-
What all rules have in common.

Every rule looks at the assignments of one category, requires a percentage, rounds what it compares,
and does not count for some participants.
-/
import ExamAdmission.Percent
import ExamAdmission.Course.Participant
import ExamAdmission.Verdict

namespace ExamAdmission

/-- The part of a rule that does not depend on its kind. -/
structure Scope where
  category : Category
  requiredPercent : Double
  rounding : Rounding
  ignored : IdSet

/-- The rounding that a course asks for, or the error that it is not known. -/
def RoundingChoice.toRounding (choice : RoundingChoice) : Except CriteriaError Rounding :=
  match choice.rounding? with
  | some rounding => .ok rounding
  | none => .error .unrecognizedRounding

namespace Scope

/-- The scope that a criterion states. -/
def ofCriterion (criterion : Criterion) : Except CriteriaError Scope :=
  criterion.pointsRounding.toRounding.map fun rounding =>
    { category := criterion.category
      requiredPercent := criterion.requiredPercent
      rounding := rounding
      ignored := criterion.ignoredParticipants }

/-- The comment on a rule that does not count for a participant. -/
def ignoredComment : String := "Rule ignored for this participant."

/-- The verdict of a rule of this scope. -/
def verdict (scope : Scope) (kind : RuleKind) (passed : Bool) (points percent : Double)
    (comment : Option String) : Verdict where
  passed := passed
  achievedPoints := points
  achievedPercent := percent
  comment := comment
  kind := kind
  category := scope.category

/-- The verdict on a participant for whom the rule does not count. -/
def ignoredVerdict (scope : Scope) (kind : RuleKind) : Verdict :=
  scope.verdict kind true 0 100 (some ignoredComment)

/-- The percentage achieved on one assignment, rounded; one that is worth nothing is complete. -/
def assignmentPercent (scope : Scope) (achieved maxPoints : Double) : Double :=
  if maxPoints.isZero then 100 else scope.rounding.apply (percentOf achieved maxPoints)

end Scope

end ExamAdmission

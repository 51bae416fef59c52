/-
Admission criteria.

A course states its criteria as data: the kind of rule, the category of assignments it looks at, the
percentage it requires, and what its kind needs besides.  Whether a criterion makes sense is found
out when a rule is built from it; `CriteriaError` lists what may be wrong.
-/
import ExamAdmission.Course.Assignment
import ExamAdmission.Course.IdSet
import ExamAdmission.Rounding

namespace ExamAdmission

/-- The kinds of rules. -/
inductive RuleKind
  /-- A share of the points of all assignments together. -/
  | overallPercent
  /-- A share of the points of each assignment, where some may be missed. -/
  | allowedFailures
  /-- A share of the assignments, each with a share of its points. -/
  | passedAssignments
  /-- A share of the points of each assignment, listed for information. -/
  | individualPercent
  /-- A kind that is not known. -/
  | unrecognized
  deriving DecidableEq

/-- The kind in reports. -/
def RuleKind.label : RuleKind → String
  | overallPercent => "overall percent"
  | allowedFailures => "individual percent with allowed failures"
  | passedAssignments => "passed assignments with minimum percent"
  | individualPercent => "individual percent"
  | unrecognized => "unrecognized"

/-- A rule as a course states it. -/
structure Criterion where
  kind : RuleKind
  /-- The category of the assignments it looks at. -/
  category : Category
  /-- The percentage that has to be reached. -/
  requiredPercent : Double
  pointsRounding : RoundingChoice
  /-- For passed assignments: how many percent of the assignments have to be passed. -/
  passedAssignmentsPercent : Option Double
  /-- For passed assignments: the rounding of how many have to be passed. -/
  passedAssignmentsRounding : RoundingChoice
  /-- For allowed failures: how many assignments may be missed. -/
  allowedFailures : Option UInt32
  /-- The participants for whom the rule does not count. -/
  ignoredParticipants : IdSet
  deriving DecidableEq

namespace Criterion

/-- A criterion of a kind, with nothing that its kind needs besides. -/
def plain (kind : RuleKind) (category : Category) (requiredPercent : Double) : Criterion where
  kind := kind
  category := category
  requiredPercent := requiredPercent
  pointsRounding := .unrounded
  passedAssignmentsPercent := none
  passedAssignmentsRounding := .unrounded
  allowedFailures := none
  ignoredParticipants := .empty

end Criterion

/-- What is wrong with the criteria of a course. -/
inductive CriteriaError
  /-- No criterion decides about admission. -/
  | noCriteria
  | unrecognizedKind
  | unrecognizedRounding
  /-- A field that the kind of rule needs is absent. -/
  | missingField (kind : RuleKind) (field : String)
  deriving DecidableEq

/-- The wording of an error. -/
def CriteriaError.message : CriteriaError → String
  | noCriteria => "course has no admission criteria"
  | unrecognizedKind => "unrecognized admission rule kind"
  | unrecognizedRounding => "unrecognized rounding method"
  | missingField kind field => kind.label ++ " rule is missing required field `" ++ field ++ "`"

end ExamAdmission

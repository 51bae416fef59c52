/-
Assignments of a course.

An assignment belongs to a category, is worth a number of points, and counts only once it has been
evaluated.
-/
import ExamAdmission.Double.Arithmetic

namespace ExamAdmission

/-- Identifies a course. -/
abbrev CourseId := String

/-- Identifies an assignment within a course. -/
abbrev AssignmentId := String

/-- Identifies a participant within a course. -/
abbrev ParticipantId := String

/-- What kind of work an assignment is. -/
inductive Category
  | homework
  | presentation
  | attendance
  | project
  | seminar
  | other
  deriving DecidableEq

/-- The category in reports. -/
def Category.label : Category → String
  | homework => "homework"
  | presentation => "presentation"
  | attendance => "attendance"
  | project => "project"
  | seminar => "seminar"
  | other => "other"

/-- How far the work on an assignment has come. -/
inductive AssignmentState
  | created
  | published
  | inReview
  | evaluated
  deriving DecidableEq

/-- The state in reports. -/
def AssignmentState.label : AssignmentState → String
  | created => "created"
  | published => "published"
  | inReview => "in_review"
  | evaluated => "evaluated"

/-- An assignment of a course. -/
structure Assignment where
  id : AssignmentId
  category : Category
  /-- What it is worth. -/
  maxPoints : Double
  state : AssignmentState
  deriving DecidableEq

namespace Assignment

/-- The assignment counts. -/
def isEvaluated (assignment : Assignment) : Bool := assignment.state = .evaluated

/-- The assignments that count, in catalogue order. -/
def evaluated (assignments : List Assignment) : List Assignment :=
  assignments.filter isEvaluated

/-- The assignments of one category, in catalogue order. -/
def ofCategory (category : Category) (assignments : List Assignment) : List Assignment :=
  assignments.filter (·.category = category)

@[simp] theorem evaluated_evaluated (assignments : List Assignment) :
    evaluated (evaluated assignments) = evaluated assignments := by
  simp [evaluated]

theorem mem_ofCategory {category : Category} {assignment : Assignment}
    {assignments : List Assignment} :
    assignment ∈ ofCategory category assignments ↔
      assignment ∈ assignments ∧ assignment.category = category := by
  simp [ofCategory]

end Assignment

end ExamAdmission

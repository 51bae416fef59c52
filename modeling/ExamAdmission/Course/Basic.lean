/-
Courses: assignments, admission criteria and participants under one identifier.
-/
import ExamAdmission.Course.Criterion
import ExamAdmission.Course.Participant

namespace ExamAdmission

/-- A course with everything that admission is decided from. -/
structure Course where
  id : CourseId
  assignments : List Assignment
  criteria : List Criterion
  participants : List Participant
  deriving DecidableEq

/-- The first participant with this identifier. -/
def Course.participant? (course : Course) (id : ParticipantId) : Option Participant :=
  course.participants.find? (·.id = id)

/-- A file of courses. -/
structure Snapshot where
  courses : List Course
  deriving DecidableEq

end ExamAdmission

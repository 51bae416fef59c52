/-
Where courses come from.

A source answers four queries about courses.  Its answers may come with an effect, so a source is
stated over any monad; `Source.logged` makes of a source without effects one that writes down which
queries it is asked, in their order.
-/
import ExamAdmission.Course.Basic

namespace ExamAdmission

/-- Why a query about a course has no answer. -/
inductive SourceError
  | courseNotFound (course : CourseId)
  | participantNotFound (course : CourseId) (participant : ParticipantId)
  /-- The data cannot be had now. -/
  | unavailable (reason : String)
  deriving DecidableEq

/-- The wording of an error. -/
def SourceError.message : SourceError → String
  | courseNotFound course => "course " ++ course ++ " not found"
  | participantNotFound course participant =>
    "participant " ++ participant ++ " not found in course " ++ course
  | unavailable reason => "course data unavailable: " ++ reason

/-- Queries about courses. -/
structure Source (m : Type → Type) where
  /-- The assignments of a course that count; a source may leave it to others to drop the rest. -/
  assignments : CourseId → m (Except SourceError (List Assignment))
  /-- The admission criteria of a course. -/
  criteria : CourseId → m (Except SourceError (List Criterion))
  /-- Everybody in a course. -/
  participants : CourseId → m (Except SourceError (List Participant))
  /-- One participant of a course. -/
  participant : CourseId → ParticipantId → m (Except SourceError Participant)

/-- The four queries. -/
inductive Query
  | assignments
  | criteria
  | participants
  | participant
  deriving DecidableEq

namespace Source

/-- Writes down a query and gives its answer. -/
def log {α : Type} (query : Query) (answer : α) : StateM (List Query) α := do
  modify (· ++ [query])
  return answer

/-- The source that writes down the queries it is asked. -/
def logged (source : Source Id) : Source (StateM (List Query)) where
  assignments course := log .assignments (source.assignments course)
  criteria course := log .criteria (source.criteria course)
  participants course := log .participants (source.participants course)
  participant course id := log .participant (source.participant course id)

end Source

end ExamAdmission

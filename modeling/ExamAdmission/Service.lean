/-
Answering questions about courses from a source.

Five questions can be asked: the status of everybody in a course or of one participant, the table of
points of everybody or of one participant, and the breakdown of one participant.  For a status or a
breakdown the rules are built first, so that a fault in the criteria is found before anybody's
assessments are asked for.  The first query that fails ends the answer.
-/
import ExamAdmission.PointsTable
import ExamAdmission.Ruleset
import ExamAdmission.Source

namespace ExamAdmission

/-- Why a question has no answer. -/
inductive ServiceError
  /-- The criteria of the course make no rules. -/
  | criteria (error : CriteriaError)
  /-- The source has no answer. -/
  | source (error : SourceError)
  deriving DecidableEq

/-- The wording of an error. -/
def ServiceError.message : ServiceError → String
  | criteria error => error.message
  | source error => error.message

namespace Source

variable {m : Type → Type} [Monad m]

/-- Passes on the answer of a query. -/
def ask {α : Type} (query : m (Except SourceError α)) : ExceptT ServiceError m α :=
  ExceptT.mk do
    match ← query with
    | .ok answer => return .ok answer
    | .error error => return .error (.source error)

/-- The rules of a course. -/
def ruleset (source : Source m) (course : CourseId) : ExceptT ServiceError m Ruleset := do
  let criteria ← ask (source.criteria course)
  let assignments ← ask (source.assignments course)
  match Ruleset.ofCriteria criteria assignments with
  | .ok ruleset => return ruleset
  | .error error => throw (.criteria error)

/-- The status of everybody in a course. -/
def statuses (source : Source m) (course : CourseId) : ExceptT ServiceError m (List Status) := do
  let ruleset ← source.ruleset course
  let participants ← ask (source.participants course)
  return ruleset.evaluateAll participants

/-- The status of one participant, taken from the statuses of a list of one. -/
def status (source : Source m) (course : CourseId) (id : ParticipantId) :
    ExceptT ServiceError m Status := do
  let ruleset ← source.ruleset course
  let participant ← ask (source.participant course id)
  match (ruleset.evaluateAll [participant]).getLast? with
  | some status => return status
  | none => throw (.source (.participantNotFound course participant.id))

/-- The breakdown of one participant. -/
def breakdown (source : Source m) (course : CourseId) (id : ParticipantId) :
    ExceptT ServiceError m (List Breakdown) := do
  let ruleset ← source.ruleset course
  let participant ← ask (source.participant course id)
  return ruleset.breakdown participant

/-- The points of everybody in a course. -/
def pointsTable (source : Source m) (course : CourseId) : ExceptT ServiceError m PointsTable := do
  let assignments ← ask (source.assignments course)
  let participants ← ask (source.participants course)
  return PointsTable.compute assignments participants

/-- The points of one participant. -/
def pointsOf (source : Source m) (course : CourseId) (id : ParticipantId) :
    ExceptT ServiceError m PointsTable := do
  let assignments ← ask (source.assignments course)
  let participant ← ask (source.participant course id)
  return PointsTable.compute assignments [participant]

end Source

end ExamAdmission

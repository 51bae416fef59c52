/-
The HTTP interface of the service.

A request is taken to the resource that its path names, if there is one, and answered if the
resource knows its method; `HEAD` is answered as `GET` without what the response carries.  Only then
are the identifiers in the path decoded, and what the request carries is read, unless it is too long.

How metrics are recorded is left out: a service only has the text in which they are shown.
-/
import ExamAdmission.Failure
import ExamAdmission.Evaluation
import ExamAdmission.Http.Message
import ExamAdmission.Http.Path

namespace ExamAdmission

/-- What a path may name; identifiers are still encoded. -/
inductive Resource
  | health
  | readiness
  | metrics
  | evaluation
  | statuses (course : String)
  | status (course participant : String)
  | breakdown (course participant : String)
  | pointsTable (course : String)
  | pointsOf (course participant : String)
  deriving DecidableEq

namespace Resource

/-- The resource that a path names.  An identifier at the end of a path must not be empty. -/
def ofSegments? : List String → Option Resource
  | ["", "health"] => some health
  | ["", "ready"] => some readiness
  | ["", "metrics"] => some metrics
  | ["", "api", "v1", "admission", "evaluate"] => some evaluation
  | ["", "api", "v1", "courses", course, "admission-status"] => some (statuses course)
  | ["", "api", "v1", "courses", course, "admission-status", participant] =>
    if participant = "" then none else some (status course participant)
  | ["", "api", "v1", "courses", course, "admission-status", participant, "breakdown"] =>
    some (breakdown course participant)
  | ["", "api", "v1", "courses", course, "points-overview"] => some (pointsTable course)
  | ["", "api", "v1", "courses", course, "points-overview", participant] =>
    if participant = "" then none else some (pointsOf course participant)
  | _ => none

/-- The resource knows a method. -/
def allows (resource : Resource) (method : String) : Bool :=
  if resource = evaluation then method = "POST" else method = "GET" || method = "HEAD"

end Resource

namespace Api

/-- How far the service has come. -/
structure State where
  /-- The service has been started. -/
  ready : Bool
  /-- The metrics that have been recorded, as they are shown. -/
  metrics : String

/-- Before anything is recorded there are no metrics to show. -/
instance : Coe Bool State := ⟨fun ready => ⟨ready, ""⟩⟩

/-- What requests are answered from. -/
structure Service where
  source : Source Id
  state : State

/-- The response to a question about courses. -/
def answer {α : Type} (encode : α → Json) (result : Except ServiceError α) : Response :=
  match result with
  | .ok value => .json 200 (encode value)
  | .error error => .error error.httpStatus error.message

/-- The response to a request that fails in the service itself. -/
def failure (error : Failure) : Response := .error error.httpStatus error.message

/-- Evaluates the course that a request carries. -/
def evaluate (body : List UInt8) : Except Failure Evaluation := do
  let course ← (Course.layout.decoder.decode body).mapError .snapshot
  (Evaluation.ofCourse course).mapError fun error => .admission (.criteria error)

/-- The response to a course that is to be evaluated. -/
def evaluationResponse (body : List UInt8) : Response :=
  match evaluate body with
  | .ok evaluation => .json 200 evaluation.toJson
  | .error error => failure error

/-- So many bytes are read of what a request carries. -/
def bodyLimit : Nat := 2 * 1024 * 1024

/-- The response to a request that carries more. -/
def tooLong : Response :=
  .text 413 "text/plain; charset=utf-8" "Failed to buffer the request body: length limit exceeded"

/-- The response to a request whose path is no text once it is decoded. -/
def invalidPath (parameter : String) : Response :=
  .text 400 "text/plain; charset=utf-8" ("Invalid URL: Invalid UTF-8 in `" ++ parameter ++ "`")

/-- Decodes the identifier of a course. -/
def withCourse (course : String) (respond : CourseId → Response) : Response :=
  match Path.decode? course with
  | none => invalidPath "course_id"
  | some course => respond course

/-- Decodes the identifiers of a course and a participant. -/
def withParticipant (course participant : String)
    (respond : CourseId → ParticipantId → Response) : Response :=
  withCourse course fun course =>
    match Path.decode? participant with
    | none => invalidPath "participant_id"
    | some participant => respond course participant

/-- The response of a resource. -/
def respondWith (service : Service) (body : List UInt8) : Resource → Response
  | .health => .json 200 (.object [("status", .string "ok")])
  | .readiness =>
    if service.state.ready then .json 200 (.object [("status", .string "ready")])
    else .json 503 (.object [("status", .string "initializing")])
  | .metrics => .text 200 "text/plain; version=0.0.4" service.state.metrics
  | .evaluation => if body.length ≤ bodyLimit then evaluationResponse body else tooLong
  | .statuses course => withCourse course fun course =>
    answer (fun statuses => .list (statuses.map (·.toJson))) (service.source.statuses course)
  | .status course participant => withParticipant course participant fun course participant =>
    answer Status.toJson (service.source.status course participant)
  | .breakdown course participant => withParticipant course participant fun course participant =>
    answer (fun breakdowns => .list (breakdowns.map (·.toJson)))
      (service.source.breakdown course participant)
  | .pointsTable course => withCourse course fun course =>
    answer PointsTable.toJson (service.source.pointsTable course)
  | .pointsOf course participant => withParticipant course participant fun course participant =>
    answer PointsTable.toJson (service.source.pointsOf course participant)

/-- The response to a request. -/
def respond (service : Service) (request : Request) : Response :=
  match Resource.ofSegments? (Path.segments request.path) with
  | none => .bare 404
  | some resource =>
    if resource.allows request.method then
      let response := respondWith service request.body resource
      if request.method = "HEAD" then response.withoutBody else response
    else .bare 405

end Api

end ExamAdmission

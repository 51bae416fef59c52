/-
The front ends agree.

A course can be evaluated in a request of its own, or be kept in a store that requests and reports
are answered from.  The first way the rules are built from the course as it is, the other way from
the assignments that the store gives; and each front end has its own way to tell an error.  A request
that is too long is refused before anything is read of the course.

* `Api.respond_evaluationRequest`, `Api.respond_statusesRequest` — the two requests reach their
  resource, whatever the identifier of the course;
* `Api.evaluate_of_built`, `Api.evaluate_of_rejected` — what becomes of the course in a request;
* `Api.front_ends_agree` — all of them tell the same statuses and points, or the same error.
-/
import ExamAdmission.Http.Api
import ExamAdmission.Proofs.Http.Questions
import ExamAdmission.Proofs.Program.Report
import ExamAdmission.Proofs.Rule.Construction
import ExamAdmission.Proofs.Store.Answers
import ExamAdmission.Proofs.Wire.Course

namespace ExamAdmission

@[simp] theorem Store.course?_ofCourses_singleton (course : Course) :
    (Store.ofCourses [course]).course? course.id = some course := by
  simp [Store.ofCourses, Store.course?_insert]

namespace Api

/-! ### Requests -/

/-- The request to evaluate the course that it carries. -/
def evaluationRequest (body : List UInt8) : Request :=
  ⟨"POST", "/api/v1/admission/evaluate", body⟩

/-- The request for everybody's status in a course. -/
def statusesRequest (course : CourseId) (body : List UInt8) : Request :=
  ⟨"GET", Path.join ["", "api", "v1", "courses", Path.encode course, "admission-status"], body⟩

theorem respond_evaluationRequest (service : Service) (body : List UInt8) :
    respond service (evaluationRequest body) =
      if body.length ≤ bodyLimit then evaluationResponse body else tooLong := by
  have named : Resource.ofSegments? (Path.segments "/api/v1/admission/evaluate") =
      some .evaluation := rfl
  rw [respond, evaluationRequest, named]
  rfl

theorem respond_statusesRequest (service : Service) (course : CourseId) (body : List UInt8) :
    respond service (statusesRequest course body) =
      answer (fun statuses => .list (statuses.map (·.toJson))) (service.source.statuses course) := by
  have asked : Question.statuses.IsAskedWith course (Path.encode course) "" :=
    ⟨Path.isWrittenAs_encode course, nofun⟩
  have request : statusesRequest course body =
      ⟨"GET", Question.statuses.path (Path.encode course) "", body⟩ := rfl
  rw [request, Question.respond_path service body asked nofun]
  rfl

/-! ### The course in a request -/

section Posted

variable {body : List UInt8} {course : Course}
  (posted : Course.layout.decoder.decode body = .ok course)
include posted

theorem evaluate_of_built {ruleset : Ruleset}
    (built : Ruleset.ofCriteria course.criteria course.assignments = .ok ruleset) :
    evaluate body = .ok
      { course := course.id
        admission := course.participants.map ruleset.evaluate
        points := PointsTable.compute course.assignments course.participants } := by
  rw [evaluate, posted]
  show (Evaluation.ofCourse course).mapError _ = _
  rw [Evaluation.ofCourse, built]
  rfl

theorem evaluate_of_rejected {error : CriteriaError}
    (rejected : Ruleset.ofCriteria course.criteria course.assignments = .error error) :
    evaluate body = .error (.admission (.criteria error)) := by
  rw [evaluate, posted]
  show (Evaluation.ofCourse course).mapError _ = _
  rw [Evaluation.ofCourse, rejected]
  rfl

end Posted

/-! ### Agreement -/

section Agreement

variable {m : Type → Type} [Monad m] [LawfulMonad m]

/-- **The front ends agree.**  A course that is posted to be evaluated is evaluated exactly if a
store with that course gives its statuses.  Then the evaluation carries the identifier of the
course, these statuses, which are also the response to the request for them and what a report in
JSON prints, and the table of points of the store.  Otherwise the criteria are rejected with the same
error, the report tells it, and the status is 422 either way.  The request that carries the course is
answered with what the evaluation comes to, unless it is too long to be read at all. -/
theorem front_ends_agree {body : List UInt8} {course : Course}
    (posted : Course.layout.decoder.decode body = .ok course)
    (poster : Service) (state : State) (other : List UInt8) {surroundings : Surroundings m}
    {path text : String} (given : path ≠ "") (plain : Arguments.isOption path = false)
    (readable : surroundings.contents path = pure (.ok text))
    (kept : Snapshot.layout.decoder.decode text.toUTF8.toList = .ok ⟨[course]⟩) :
    respond poster (evaluationRequest body) =
      (if body.length ≤ bodyLimit then evaluationResponse body else tooLong) ∧
    (evaluate body).isOk = ((Store.ofCourses [course]).source.statuses course.id).run.isOk ∧
    (∀ evaluation, evaluate body = .ok evaluation →
      evaluation.course = course.id ∧
      ((Store.ofCourses [course]).source.statuses course.id).run = .ok evaluation.admission ∧
      ((Store.ofCourses [course]).source.pointsTable course.id).run = .ok evaluation.points ∧
      evaluationResponse body = .json 200 evaluation.toJson ∧
      respond ⟨(Store.ofCourses [course]).source, state⟩ (statusesRequest course.id other) =
        .json 200 (.list (evaluation.admission.map (·.toJson))) ∧
      Program.run surroundings (Arguments.report path) =
        pure ⟨0, String.ofList (Json.list (evaluation.admission.map (·.toJson))).pretty ++ "\n",
          ""⟩) ∧
    (∀ failure, evaluate body = .error failure → ∃ error : CriteriaError,
      failure = .admission (.criteria error) ∧
      ((Store.ofCourses [course]).source.statuses course.id).run = .error (.criteria error) ∧
      evaluationResponse body = .error 422 failure.message ∧
      respond ⟨(Store.ofCourses [course]).source, state⟩ (statusesRequest course.id other) =
        .error 422 error.message ∧
      Program.run surroundings (Arguments.report path) =
        pure ⟨1, "", "application error: " ++ failure.message ++ "\n"⟩) := by
  have known := Store.course?_ofCourses_singleton course
  have printed := Program.run_report given plain readable kept
  rw [Program.defaultCourse_ofCourse] at printed
  rw [respond_statusesRequest, printed]
  refine ⟨respond_evaluationRequest poster body, ?_⟩
  cases rules : Ruleset.ofCriteria course.criteria course.assignments with
  | ok ruleset =>
    have evaluated := evaluate_of_built posted rules
    have statuses := Store.statuses_of_built known rules
    refine ⟨by rw [evaluated, statuses]; rfl, ?_, ?_⟩
    · intro evaluation same
      obtain rfl : _ = evaluation := Except.ok.inj (evaluated.symm.trans same)
      refine ⟨rfl, statuses, Store.pointsTable_of_known known, ?_, ?_, ?_⟩
      · rw [evaluationResponse, evaluated]
      · exact congrArg (answer _) statuses
      · rw [statuses]
        simp [Program.reported, Program.textOf]
    · intro failure failed
      cases evaluated.symm.trans failed
  | error error =>
    have evaluated := evaluate_of_rejected posted rules
    have statuses := Store.statuses_of_rejected known rules
    refine ⟨by rw [evaluated, statuses]; rfl, ?_, ?_⟩
    · intro evaluation same
      cases evaluated.symm.trans same
    · intro failure failed
      obtain rfl : _ = failure := Except.error.inj (evaluated.symm.trans failed)
      refine ⟨error, rfl, statuses, ?_, ?_, ?_⟩
      · rw [evaluationResponse, evaluated]
        rfl
      · exact congrArg (answer _) statuses
      · rw [statuses, Program.reported]

end Agreement

theorem length_demo_le : Demo.course.toJson.bytes.length ≤ bodyLimit :=
  Course.length_toJson_demo_le.trans (by decide)

/-- The demo course is posted, and kept in a file. -/
theorem demo_front_ends_agree :
    ∃ evaluation,
      evaluate (String.ofList Demo.course.toJson.compact).toUTF8.toList = .ok evaluation ∧
      respond ⟨Store.empty.source, false⟩
          (evaluationRequest (String.ofList Demo.course.toJson.compact).toUTF8.toList) =
        .json 200 evaluation.toJson ∧
      respond ⟨(Store.ofCourses [Demo.course]).source, true⟩ (statusesRequest Demo.courseId []) =
        .json 200 (.list (evaluation.admission.map (·.toJson))) ∧
      Program.run (m := Id)
          ⟨[], none, fun _ => .ok (String.ofList (Snapshot.toJson ⟨[Demo.course]⟩).compact)⟩
          (Arguments.report "courses.json") =
        ⟨0, String.ofList (Json.list (evaluation.admission.map (·.toJson))).pretty ++ "\n", ""⟩ := by
  have posted : Course.layout.decoder.decode
      (String.ofList Demo.course.toJson.compact).toUTF8.toList = .ok Demo.course :=
    Course.decode_demo
  have kept : Snapshot.layout.decoder.decode
      (String.ofList (Snapshot.toJson ⟨[Demo.course]⟩).compact).toUTF8.toList =
        .ok ⟨[Demo.course]⟩ :=
    Snapshot.decodeWith_toJson (by decide +kernel)
  have ok : (Ruleset.ofCriteria Demo.course.criteria Demo.course.assignments).isOk = true := rfl
  obtain ⟨ruleset, built⟩ := exists_eq_ok_of_isOk ok
  have evaluated := evaluate_of_built posted built
  have readable : (Surroundings.mk [] none fun _ =>
      .ok (String.ofList (Snapshot.toJson ⟨[Demo.course]⟩).compact) : Surroundings Id).contents
        "courses.json" = pure (.ok (String.ofList (Snapshot.toJson ⟨[Demo.course]⟩).compact)) := rfl
  obtain ⟨response, -, agree, -⟩ := front_ends_agree posted ⟨Store.empty.source, false⟩ true []
    (by decide) rfl readable kept
  obtain ⟨-, -, -, post, get, printed⟩ := agree _ evaluated
  exact ⟨_, evaluated, (response.trans (if_pos length_demo_le)).trans post, get, printed⟩

end Api

end ExamAdmission

/-
Whether a client can read the answer to an evaluation.

The response holds the statuses and the table of points of the course that was posted.  The table
holds numbers that were posted, and is always read as it was sent.  A verdict holds sums and
quotients, which may overflow; such a number is sent as null, and then the statuses are not read at
all:

* `Response.member?` — what is found under a name in a response;
* `Course.IsModerate` — what keeps the verdicts on a course in range;
* `Api.evaluation_read_back` — **the table is read as it was sent, and the statuses are exactly if
  no number in them overflowed**;
* `Api.evaluation_not_read_back` — finite points whose sum, from the left, overflows.
-/
import ExamAdmission.Proofs.Http.Agreement
import ExamAdmission.Proofs.Ruleset.Overflow
import ExamAdmission.Proofs.Wire.Answer
import ExamAdmission.Proofs.Wire.Lossless

namespace ExamAdmission

/-- The value under a name, in an object that was read to its end. -/
def Document.member? (name : String) : Document → Option Document
  | .object members .closed => members.lookup (.ok name)
  | _ => none

/-- What a client reads of a response in JSON, if nothing follows it. -/
def Response.document? (reading : Numeral.Reading) (response : Response) : Option Document :=
  match response.body with
  | .json content =>
    match Document.ofBytesWith reading content.bytes with
    | (document, trailing) => if trailing then none else some document
  | _ => none

/-- What a client finds under a name in a response. -/
def Response.member? (reading : Numeral.Reading) (response : Response) (name : String) :
    Option Document :=
  (response.document? reading).bind (·.member? name)

variable {reading : Numeral.Reading}

/-! ### The response -/

namespace Evaluation

/-- The numbers of the statuses. -/
def numbers (evaluation : Evaluation) : List Double := evaluation.admission.flatMap Status.numbers

theorem readable_toJson {evaluation : Evaluation} (isNearest : Numeral.IsNearest reading)
    (finite : AllFinite evaluation.points.numbers) : evaluation.toJson.Readable reading := by
  have back : ∀ x : Double, x.isFinite = true → Numeral.readsBack reading x = true :=
    fun _ => Numeral.readsBack_of_isNearest reading isNearest
  refine .object ?_
  simp only [List.forall_mem_cons]
  exact ⟨.string _, .list (List.forall_mem_map.mpr fun s _ => s.readable_toJson fun x _ => back x),
    PointsTable.readable_toJson fun x hx => back x (finite x hx), List.forall_mem_nil _⟩

end Evaluation

theorem Response.document?_json {content : Json} (readable : content.Readable reading)
    (status : Nat) : (Response.json status content).document? reading = some content.document := by
  rw [document?, json]
  dsimp only
  rw [Document.ofBytesWith_bytes readable]
  rfl

theorem ServiceError.httpStatus_ne_ok (error : ServiceError) : error.httpStatus ≠ 200 := by
  cases error with
  | criteria error => simp [httpStatus]
  | source error => cases error <;> simp [httpStatus]

/-- No failure is told with the status of success. -/
theorem Failure.httpStatus_ne_ok (failure : Failure) : failure.httpStatus ≠ 200 := by
  cases failure with
  | admission error => exact error.httpStatus_ne_ok
  | _ => simp [httpStatus]

/-- What keeps the verdicts on the participants of a course in range. -/
structure Course.IsModerate (course : Course) (ruleset : Ruleset) : Prop where
  few : course.assignments.length < 2 ^ 64
  /-- What the assignments of a criterion are worth together is in range. -/
  totals : ∀ criterion ∈ course.criteria,
    (Double.sum ((Assignment.ofCategory criterion.category
      (Assignment.evaluated course.assignments)).map (·.maxPoints))).isFinite = true
  /-- No criterion requires less than a hundredth of an assignment to be passed, but none. -/
  required : ∀ gate ∈ ruleset.gates, ∀ count ∈ gate.requiredCounts,
    count.isZero = true ∨ 1 / 100 ≤ count.rank
  /-- All points lie between zero and their maximum. -/
  points : ∀ participant ∈ course.participants, ∀ a ∈ Assignment.evaluated course.assignments,
    0 ≤ participant.pointsFor a.id ∧ participant.pointsFor a.id ≤ a.maxPoints

namespace Api

variable {evaluation : Evaluation}

/-- An evaluation is that of a course that was posted, and whose criteria make rules. -/
theorem exists_of_evaluate_eq_ok {body : List UInt8} (evaluated : evaluate body = .ok evaluation) :
    ∃ course ruleset, Course.layout.decoder.decode body = .ok course ∧
      Ruleset.ofCriteria course.criteria course.assignments = .ok ruleset ∧
      evaluation = ⟨course.id, course.participants.map ruleset.evaluate,
        PointsTable.compute course.assignments course.participants⟩ := by
  cases posted : Course.layout.decoder.decode body with
  | error fault =>
    rw [evaluate, posted] at evaluated
    cases evaluated
  | ok course =>
    cases built : Ruleset.ofCriteria course.criteria course.assignments with
    | error error =>
      rw [evaluate_of_rejected posted built] at evaluated
      cases evaluated
    | ok ruleset =>
      rw [evaluate_of_built posted built] at evaluated
      exact ⟨course, ruleset, rfl, built, (Except.ok.inj evaluated).symm⟩

/-- The table of points holds numbers that were read. -/
theorem allFinite_points {body : List UInt8} (evaluated : evaluate body = .ok evaluation) :
    AllFinite evaluation.points.numbers := by
  obtain ⟨course, ruleset, posted, -, rfl⟩ := exists_of_evaluate_eq_ok evaluated
  have finite := Course.yields_finite.of_decodeWith Numeral.scaled_isDefined posted
  obtain ⟨assignments, -, participants⟩ := Course.forall_numbers.mp finite
  exact PointsTable.allFinite_compute (List.forall_mem_flatMap.mpr assignments)
    (List.forall_mem_flatMap.mpr participants)

theorem respond_of_evaluated (service : Service) {body : List UInt8}
    (short : body.length ≤ bodyLimit) (evaluated : evaluate body = .ok evaluation) :
    respond service (evaluationRequest body) = .json 200 evaluation.toJson := by
  rw [respond_evaluationRequest, if_pos short, evaluationResponse, evaluated]

/-- Only an evaluation is answered with status 200, and only of a request that is not too long. -/
theorem exists_of_answered {service : Service} {body : List UInt8}
    (answered : (respond service (evaluationRequest body)).status = 200) :
    ∃ evaluation, evaluate body = .ok evaluation ∧
      respond service (evaluationRequest body) = .json 200 evaluation.toJson := by
  rw [respond_evaluationRequest] at answered
  split at answered
  · next short =>
    cases evaluated : evaluate body with
    | ok evaluation => exact ⟨evaluation, rfl, respond_of_evaluated service short evaluated⟩
    | error error =>
      rw [evaluationResponse, evaluated] at answered
      exact absurd answered (Failure.httpStatus_ne_ok error)
  · cases answered

section Sent

variable (isNearest : Numeral.IsNearest reading) {response : Response}
  (sent : response = .json 200 evaluation.toJson)
  (finite : AllFinite evaluation.points.numbers)
include isNearest sent finite

theorem member?_pointsOverview :
    response.member? reading "pointsOverview" = some evaluation.points.toJson.document := by
  have readable := Evaluation.readable_toJson isNearest finite
  rw [sent, Response.member?, Response.document?_json readable, Evaluation.toJson,
    Json.document_object]
  rfl

theorem member?_admission :
    response.member? reading "admission" =
      some (Json.list (evaluation.admission.map Status.toJson)).document := by
  have readable := Evaluation.readable_toJson isNearest finite
  rw [sent, Response.member?, Response.document?_json readable, Evaluation.toJson,
    Json.document_object]
  rfl

end Sent

/-- **The table of points is read as it was sent, and the statuses are exactly if no number in them
overflowed.**  None does on a moderate course. -/
theorem evaluation_read_back (isNearest : Numeral.IsNearest reading) (service : Service)
    {body : List UInt8} {course : Course} (posted : Course.layout.decoder.decode body = .ok course)
    (answered : (respond service (evaluationRequest body)).status = 200) :
    ∃ evaluation, evaluate body = .ok evaluation ∧
      (∃ points, (respond service (evaluationRequest body)).member? reading "pointsOverview" =
          some points ∧ PointsTable.layout.decoder points = .ok evaluation.points) ∧
      (∃ admission, (respond service (evaluationRequest body)).member? reading "admission" =
          some admission ∧
        ∀ statuses, Status.layout.decoder.list admission = .ok statuses ↔
          statuses = evaluation.admission ∧ AllFinite evaluation.numbers) ∧
      ∀ ruleset, Ruleset.ofCriteria course.criteria course.assignments = .ok ruleset →
        course.IsModerate ruleset → AllFinite evaluation.numbers := by
  obtain ⟨evaluation, evaluated, sent⟩ := exists_of_answered answered
  have finite := allFinite_points evaluated
  refine ⟨evaluation, evaluated,
    ⟨_, member?_pointsOverview isNearest sent finite, PointsTable.decodes_toJson finite⟩,
    ⟨_, member?_admission isNearest sent finite, fun _ => Status.decodes_list_iff⟩,
    fun ruleset built moderate => ?_⟩
  rw [evaluate_of_built posted built] at evaluated
  obtain rfl := Except.ok.inj evaluated
  refine List.forall_mem_flatMap.mpr fun status mem => ?_
  obtain ⟨participant, known, rfl⟩ := List.mem_map.mp mem
  exact Ruleset.allFinite_evaluate built moderate.few moderate.totals moderate.required
    (moderate.points participant known)

/-- The statuses of the demo course are read as they were sent. -/
theorem demo_evaluation_read_back :
    ∃ evaluation admission, evaluate Demo.course.toJson.bytes = .ok evaluation ∧
      (respond ⟨Store.empty.source, true⟩ (evaluationRequest Demo.course.toJson.bytes)).member?
        Numeral.nearest "admission" = some admission ∧
      Status.layout.decoder.list admission = .ok evaluation.admission := by
  have ⟨ruleset, built⟩ : ∃ ruleset,
      Ruleset.ofCriteria Demo.course.criteria Demo.course.assignments = .ok ruleset := ⟨_, rfl⟩
  have answered : (respond ⟨Store.empty.source, true⟩
      (evaluationRequest Demo.course.toJson.bytes)).status = 200 := by
    rw [respond_of_evaluated _ length_demo_le (evaluate_of_built Course.decode_demo built)]
    rfl
  have moderate : Demo.course.IsModerate ruleset := by
    obtain rfl := Except.ok.inj (built.symm.trans rfl)
    exact ⟨by decide, by decide +kernel, by decide +kernel, by decide +kernel⟩
  obtain ⟨evaluation, evaluated, -, ⟨admission, found, decodes⟩, inRange⟩ :=
    @evaluation_read_back Numeral.nearest (fun _ _ => rfl) _ _ _ Course.decode_demo answered
  exact ⟨_, admission, evaluated, found, (decodes _).mpr ⟨rfl, inRange ruleset built moderate⟩⟩

/-! ### A sum that overflows -/

/-- The first two sheets together are beyond all doubles, though the third takes one of them back. -/
def overflowing : Course where
  id := "c"
  assignments :=
    [Demo.evaluated "a" .homework ((Decimal.mk 1 308).toDouble false),
      Demo.evaluated "b" .homework 0, Demo.evaluated "d" .homework 0]
  criteria := [.plain .overallPercent .homework 50]
  participants :=
    [Demo.participant "ada"
      [("a", some ((Decimal.mk 1 308).toDouble false)),
        ("b", some ((Decimal.mk 1 308).toDouble false)),
        ("d", some ((Decimal.mk 1 308).toDouble true))]]

/-- Not every answer to an evaluation is read as it was sent. -/
theorem evaluation_not_read_back :
    ¬ ∀ (body : List UInt8) (course : Course), Course.layout.decoder.decode body = .ok course →
      (respond ⟨Store.empty.source, true⟩ (evaluationRequest body)).status = 200 →
      ∃ evaluation, evaluate body = .ok evaluation ∧
        (∃ admission, (respond ⟨Store.empty.source, true⟩ (evaluationRequest body)).member?
            Numeral.nearest "admission" = some admission ∧
          Status.layout.decoder.list admission = .ok evaluation.admission) ∧
        ∃ points, (respond ⟨Store.empty.source, true⟩ (evaluationRequest body)).member?
            Numeral.nearest "pointsOverview" = some points ∧
          PointsTable.layout.decoder points = .ok evaluation.points := by
  intro all
  have posted : Course.layout.decoder.decode overflowing.toJson.bytes = .ok overflowing :=
    Course.decodeWith_toJson (by decide +kernel)
  have ⟨ruleset, built⟩ : ∃ ruleset,
      Ruleset.ofCriteria overflowing.criteria overflowing.assignments = .ok ruleset := ⟨_, rfl⟩
  have short : overflowing.toJson.bytes.length ≤ bodyLimit := by
    rw [Json.bytes, toList_toUTF8]
    decide +kernel
  have sent := fun evaluation => @respond_of_evaluated evaluation ⟨Store.empty.source, true⟩ _ short
  have answered : (respond ⟨Store.empty.source, true⟩
      (evaluationRequest overflowing.toJson.bytes)).status = 200 := by
    rw [sent _ (evaluate_of_built posted built)]
    rfl
  obtain ⟨evaluation, evaluated, ⟨admission, found, decoded⟩, -⟩ := all _ _ posted answered
  obtain rfl := Option.some.inj (found.symm.trans (member?_admission (fun _ _ => rfl)
    (sent evaluation evaluated) (allFinite_points evaluated)))
  obtain rfl := Except.ok.inj (evaluated.symm.trans (evaluate_of_built posted built))
  have finite := (Status.decodes_list_iff.mp decoded).2
  obtain rfl := Except.ok.inj (built.symm.trans rfl)
  revert finite
  unfold AllFinite
  decide +kernel

end Api

end ExamAdmission

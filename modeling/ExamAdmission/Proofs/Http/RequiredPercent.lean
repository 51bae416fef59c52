/-
Required percentages are taken as they are.

Which percentage a criterion requires plays no part in whether it is accepted.  A course that
requires less than nothing or more than everything is read, kept and evaluated like any other, and
its rules ask for the percentages that were stated:

* `Criterion.SameButPercent` — two criteria that differ in nothing but the percentage they require;
* `Ruleset.map_requiredPercent` — the rules of a course require what its criteria require;
* `Store.failure?_put` — why a store with a course does not answer a question about it;
* `Api.failure?_evaluate` — why a course that is posted is not evaluated;
* `Api.requiredPercent_unchecked` — **required percentages neither cause nor prevent an error**,
  whichever way a course comes in;
* `Api.requiredPercent_out_of_range` — so they need not lie between zero and one hundred.
-/
import ExamAdmission.Proofs.Http.Agreement
import ExamAdmission.Proofs.Ruleset.Outcome
import ExamAdmission.Proofs.Wire.Course

namespace ExamAdmission

/-! ### Criteria that require something else -/

/-- The criteria differ in nothing but the percentage they require. -/
def Criterion.SameButPercent (criterion other : Criterion) : Prop :=
  other = { criterion with requiredPercent := other.requiredPercent }

/-- No kind of rule looks at the required percentage when it is built. -/
theorem Criterion.SameButPercent.sameNeeds {criterion other : Criterion}
    (same : criterion.SameButPercent other) : criterion.SameNeeds other := by
  rw [same]
  exact ⟨rfl, fun _ => Iff.rfl, fun _ => Iff.rfl, fun _ => Iff.rfl, fun _ => Iff.rfl⟩

namespace Ruleset

variable {criteria others : List Criterion} {assignments : List Assignment} {ruleset : Ruleset}

/-- The rules of a course require what its criteria require, criterion by criterion. -/
theorem map_requiredPercent (built : ofCriteria criteria assignments = .ok ruleset) :
    ruleset.rules.map (·.scope.requiredPercent) = criteria.map (·.requiredPercent) := by
  obtain ⟨stated, -⟩ := ofCriteria_eq_ok_iff.mp built
  rw [← List.forall₂_eq_eq_eq, List.forall₂_map_left_iff, List.forall₂_map_right_iff]
  exact stated.flip.imp fun _ _ states => states.requiredPercent_eq

/-- Whether rules can be built is not a matter of the percentages that are required. -/
theorem failure?_ofCriteria_congr
    (same : List.Forall₂ Criterion.SameButPercent criteria others) :
    failure? (ofCriteria others assignments) = failure? (ofCriteria criteria assignments) := by
  have kinds := outcome_congr (same.imp fun _ _ same => same.sameNeeds)
  rw [← map_kinds_ofCriteria_eq_outcome others assignments,
    ← map_kinds_ofCriteria_eq_outcome criteria assignments] at kinds
  simpa only [failure?_map] using congrArg failure? kinds

end Ruleset

/-! ### A course that is kept -/

/-- The error with which a course answers a question: its criteria are rejected, or the participant
is not listed. -/
def Course.error? (course : Course) (question : Question) : Option ServiceError :=
  match question.needsRules, failure? (Ruleset.ofCriteria course.criteria course.assignments) with
  | true, some error => some (.criteria error)
  | _, _ => question.participant?.bind fun id =>
    if (course.participant? id).isSome then none
    else some (.source (.participantNotFound course.id id))

namespace Store

variable {store : Store} {course : Course}

theorem failure?_elim {α : Type} {id : CourseId} {participant : ParticipantId}
    (listed : Option Participant) (value : Participant → α) :
    failure? (listed.elim (.error (.source (.participantNotFound id participant)))
      fun listed => .ok (value listed)) =
      if listed.isSome then none
      else some (ServiceError.source (.participantNotFound id participant)) := by
  cases listed with
  | none => rfl
  | some listed => rfl

/-- A store answers from the course that it keeps. -/
theorem failure?_put (known : store.course? course.id = some course) (question : Question) :
    failure? (question.put store.source course.id).run = course.error? question := by
  rw [Course.error?]
  cases question with
  | statuses =>
    cases built : Ruleset.ofCriteria course.criteria course.assignments with
    | error error => exact congrArg failure? (statuses_of_rejected known built)
    | ok ruleset => exact congrArg failure? (statuses_of_built known built)
  | status id =>
    cases built : Ruleset.ofCriteria course.criteria course.assignments with
    | error error => exact congrArg failure? (status_of_rejected known built)
    | ok ruleset =>
      exact (congrArg failure? (status_of_built known built)).trans (failure?_elim _ _)
  | breakdown id =>
    cases built : Ruleset.ofCriteria course.criteria course.assignments with
    | error error => exact congrArg failure? (breakdown_of_rejected known built)
    | ok ruleset =>
      exact (congrArg failure? (breakdown_of_built known built)).trans (failure?_elim _ _)
  | pointsTable => exact congrArg failure? (pointsTable_of_known known)
  | pointsOf id => exact (congrArg failure? (pointsOf_of_known known)).trans (failure?_elim _ _)

end Store

/-! ### The ways in which a course comes in -/

namespace Api

theorem failure?_evaluate {body : List UInt8} {course : Course}
    (posted : Course.layout.decoder.decode body = .ok course) :
    failure? (evaluate body) =
      (failure? (Ruleset.ofCriteria course.criteria course.assignments)).map
        fun error => .admission (.criteria error) := by
  cases built : Ruleset.ofCriteria course.criteria course.assignments with
  | ok ruleset => exact congrArg failure? (evaluate_of_built posted built)
  | error error => exact congrArg failure? (evaluate_of_rejected posted built)

/-- The status of the response to an evaluation is that of its error. -/
theorem status_evaluationResponse (body : List UInt8) :
    (evaluationResponse body).status =
      (failure? (evaluate body)).elim 200 Failure.httpStatus := by
  rw [evaluationResponse]
  cases evaluate body with
  | ok evaluation => rfl
  | error error => rfl

/-- **Required percentages pass unchecked.**  Two courses that differ in nothing but the percentages
that their criteria require are evaluated, when they are posted, with the same error or both without
one, and the responses have the same status, as long as the percentages do not make one of the two
requests too long.  Kept in a store, the courses answer every question with the same error or both
without one.  And the rules that they are answered from require exactly the percentages that were
stated. -/
theorem requiredPercent_unchecked {course : Course} {others : List Criterion}
    (same : List.Forall₂ Criterion.SameButPercent course.criteria others)
    {body body' : List UInt8} (posted : Course.layout.decoder.decode body = .ok course)
    (posted' : Course.layout.decoder.decode body' = .ok { course with criteria := others })
    {store store' : Store} (kept : store.course? course.id = some course)
    (kept' : store'.course? course.id = some { course with criteria := others }) :
    failure? (evaluate body') = failure? (evaluate body) ∧
    (evaluationResponse body').status = (evaluationResponse body).status ∧
    ((body'.length ≤ bodyLimit ↔ body.length ≤ bodyLimit) → ∀ service,
      (respond service (evaluationRequest body')).status =
        (respond service (evaluationRequest body)).status) ∧
    (∀ question : Question, failure? (question.put store'.source course.id).run =
      failure? (question.put store.source course.id).run) ∧
    (∀ ruleset, (store'.source.ruleset course.id).run = .ok ruleset →
      Ruleset.ofCriteria others course.assignments = .ok ruleset) ∧
    ∀ ruleset, Ruleset.ofCriteria others course.assignments = .ok ruleset →
      ruleset.rules.map (·.scope.requiredPercent) = others.map (·.requiredPercent) := by
  have errors : failure? (Ruleset.ofCriteria others course.assignments) =
      failure? (Ruleset.ofCriteria course.criteria course.assignments) :=
    Ruleset.failure?_ofCriteria_congr same
  have evaluated : failure? (evaluate body') = failure? (evaluate body) := by
    rw [failure?_evaluate posted, failure?_evaluate posted', errors]
  -- the courses list the same participants, so only the criteria could make a difference
  have status : (evaluationResponse body').status = (evaluationResponse body).status := by
    rw [status_evaluationResponse, status_evaluationResponse, evaluated]
  refine ⟨evaluated, status, fun short service => ?_, fun question => ?_, fun ruleset built => ?_,
    fun ruleset => Ruleset.map_requiredPercent⟩
  · rw [respond_evaluationRequest, respond_evaluationRequest]
    by_cases fits : body.length ≤ bodyLimit
    · rw [if_pos fits, if_pos (short.mpr fits), status]
    · rw [if_neg fits, if_neg (fits ∘ short.mp)]
  · have answered := @Store.failure?_put store' { course with criteria := others } kept' question
    rw [answered, Store.failure?_put kept, Course.error?, Course.error?, errors]
    rfl
  · rw [Store.ruleset_of_known kept'] at built
    cases rules : Ruleset.ofCriteria others course.assignments with
    | error error =>
      rw [rules] at built
      cases built
    | ok other =>
      rw [rules] at built
      cases built
      rfl

/-- The demo criteria, with percentages that nobody can reach or that everybody reaches. -/
def extremeCriteria : List Criterion :=
  [{ Criterion.plain .overallPercent .homework 150 with pointsRounding := ⟨.decimals, some 0⟩ },
   { Criterion.plain .passedAssignments .homework (-5) with
     passedAssignmentsPercent := some 60
     passedAssignmentsRounding := ⟨.ceil, none⟩ },
   { Criterion.plain .allowedFailures .presentation 101 with
     allowedFailures := some 0
     ignoredParticipants := .ofList ["exchange-student"] },
   .plain .individualPercent .homework (-1)]

/-- The demo course with these criteria. -/
def extremeCourse : Course := { Demo.course with criteria := extremeCriteria }

theorem decode_extremeCourse :
    Course.layout.decoder.decode extremeCourse.toJson.bytes = .ok extremeCourse :=
  Course.decodeWith_toJson (by decide +kernel)

theorem not_inRange : ¬ (0 ≤ (150 : Double) ∧ (150 : Double) ≤ 100) := by decide +kernel

theorem length_extremeCourse_le : extremeCourse.toJson.bytes.length ≤ bodyLimit := by
  rw [Json.bytes, toList_toUTF8]
  decide +kernel

/-- The demo course is evaluated with such percentages as well. -/
theorem demo_requiredPercent_unchecked :
    List.Forall₂ Criterion.SameButPercent Demo.criteria extremeCriteria ∧
    (respond ⟨Store.empty.source, true⟩ (evaluationRequest extremeCourse.toJson.bytes)).status =
      200 ∧
    ∃ ruleset, Ruleset.ofCriteria extremeCriteria Demo.course.assignments = .ok ruleset ∧
      ruleset.rules.map (·.scope.requiredPercent) = [150, -5, 101, -1] := by
  have same : List.Forall₂ Criterion.SameButPercent Demo.criteria extremeCriteria :=
    .cons rfl (.cons rfl (.cons rfl (.cons rfl .nil)))
  have accepted : failure? (Ruleset.ofCriteria Demo.course.criteria Demo.course.assignments) =
    none := rfl
  have ⟨ruleset, built⟩ : ∃ ruleset,
      Ruleset.ofCriteria extremeCriteria Demo.course.assignments = .ok ruleset := ⟨_, rfl⟩
  obtain ⟨-, -, answered, -, -, required⟩ :=
    requiredPercent_unchecked same Course.decode_demo decode_extremeCourse
      (Store.course?_ofCourses_singleton Demo.course)
      (Store.course?_ofCourses_singleton extremeCourse)
  refine ⟨same, ?_, ruleset, built, required ruleset built⟩
  rw [answered (iff_of_true length_extremeCourse_le length_demo_le), respond_evaluationRequest,
    if_pos length_demo_le, status_evaluationResponse, failure?_evaluate Course.decode_demo, accepted]
  rfl

/-- A course that is answered may require more than everything. -/
theorem requiredPercent_out_of_range :
    ¬ ∀ (body : List UInt8) (course : Course), Course.layout.decoder.decode body = .ok course →
      (respond ⟨Store.empty.source, true⟩ (evaluationRequest body)).status = 200 →
      ∀ criterion ∈ course.criteria,
        0 ≤ criterion.requiredPercent ∧ criterion.requiredPercent ≤ 100 := by
  intro all
  have accepted :
      failure? (Ruleset.ofCriteria extremeCourse.criteria extremeCourse.assignments) = none :=
    rfl
  have answered : (respond ⟨Store.empty.source, true⟩
      (evaluationRequest extremeCourse.toJson.bytes)).status = 200 := by
    rw [respond_evaluationRequest, if_pos length_extremeCourse_le, status_evaluationResponse,
      failure?_evaluate decode_extremeCourse, accepted]
    rfl
  exact not_inRange (all _ _ decode_extremeCourse answered _ List.mem_cons_self)

end Api

end ExamAdmission

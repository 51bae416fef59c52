/-
What a store answers.

A question about a course is answered in steps: the course is looked up, its rules are built, and a
participant is looked up.  The first step that fails ends the answer, so the answer to each question
is known from the step at which it ends:

* `Source.status_eq` — a list of one has a status, over any source;
* `Store.statuses_of_unknown` and its companions — no course has the identifier;
* `Store.statuses_of_rejected` and its companions — the criteria of the course make no rules;
* `Store.statuses_of_built` — everybody's status;
* `Store.status_of_built`, `Store.breakdown_of_built` — what the rules say about the first
  participant with the identifier, if there is one;
* `Store.pointsTable_of_known`, `Store.pointsOf_of_known` — the table of points, without any rules.
-/
import ExamAdmission.Service
import ExamAdmission.Store

namespace ExamAdmission

/-! ### Steps of an answer -/

section Steps

variable {α β ε : Type} {answer : ExceptT ε Id α} {next : α → ExceptT ε Id β}

theorem run_bind_of_error {error : ε} (failed : answer.run = .error error) :
    (answer >>= next).run = .error error := by
  rw [ExceptT.run_bind, failed]
  rfl

theorem run_bind_of_ok {value : α} (given : answer.run = .ok value) :
    (answer >>= next).run = (next value).run := by
  rw [ExceptT.run_bind, given]
  rfl

end Steps

/-- The statuses of a list of one are never empty, so the status of one participant is what the
rules say about the participant that the source gives. -/
theorem Source.status_eq {m : Type → Type} [Monad m] (source : Source m) (course : CourseId)
    (id : ParticipantId) :
    source.status course id = do
      let ruleset ← source.ruleset course
      let participant ← ask (source.participant course id)
      return ruleset.evaluate participant := rfl

namespace Store

variable {store : Store} {id : CourseId} {participant : ParticipantId}

/-! ### An unknown course -/

section Unknown

variable (unknown : store.course? id = none)
include unknown

/-- Whatever is asked about an unknown course, it is not found. -/
theorem run_ask_of_unknown {α : Type} (query : Course → Except SourceError α) :
    (Source.ask (m := Id) (store.ask id query)).run = .error (.source (.courseNotFound id)) := by
  rw [ask, unknown]
  rfl

theorem ruleset_of_unknown :
    (store.source.ruleset id).run = .error (.source (.courseNotFound id)) :=
  run_bind_of_error (run_ask_of_unknown unknown _)

theorem statuses_of_unknown :
    (store.source.statuses id).run = .error (.source (.courseNotFound id)) :=
  run_bind_of_error (ruleset_of_unknown unknown)

theorem status_of_unknown :
    (store.source.status id participant).run = .error (.source (.courseNotFound id)) :=
  run_bind_of_error (ruleset_of_unknown unknown)

theorem breakdown_of_unknown :
    (store.source.breakdown id participant).run = .error (.source (.courseNotFound id)) :=
  run_bind_of_error (ruleset_of_unknown unknown)

theorem pointsTable_of_unknown :
    (store.source.pointsTable id).run = .error (.source (.courseNotFound id)) :=
  run_bind_of_error (run_ask_of_unknown unknown _)

theorem pointsOf_of_unknown :
    (store.source.pointsOf id participant).run = .error (.source (.courseNotFound id)) :=
  run_bind_of_error (run_ask_of_unknown unknown _)

end Unknown

/-! ### A known course -/

section Known

variable {course : Course} (known : store.course? id = some course)
include known

theorem id_of_known : course.id = id := by simpa using List.find?_some known

/-- What is asked about a known course is answered from that course. -/
theorem run_ask_of_known {α : Type} (query : Course → Except SourceError α) {value : α}
    (given : query course = .ok value) :
    (Source.ask (m := Id) (store.ask id query)).run = .ok value := by
  rw [ask, known]
  show (Source.ask (m := Id) (query course)).run = .ok value
  rw [given]
  rfl

theorem run_participant_of_listed {listed : Participant}
    (found : course.participant? participant = some listed) :
    (Source.ask (store.source.participant id participant)).run = .ok listed :=
  run_ask_of_known known _ (by rw [askParticipant, found])

/-- Without a participant of the identifier, the error names the course and the identifier. -/
theorem run_participant_of_absent (absent : course.participant? participant = none) :
    (Source.ask (store.source.participant id participant)).run =
      .error (.source (.participantNotFound id participant)) := by
  show (Source.ask (m := Id) (store.ask id (askParticipant participant))).run = _
  rw [ask, known]
  show (Source.ask (m := Id) (askParticipant participant course)).run = _
  rw [askParticipant, absent, id_of_known known]
  rfl

/-- The rules of a known course are built from its criteria. -/
theorem ruleset_of_known :
    (store.source.ruleset id).run =
      (Ruleset.ofCriteria course.criteria course.assignments).mapError .criteria := by
  have criteria := run_ask_of_known known (fun course => .ok course.criteria) rfl
  have assignments := run_ask_of_known known
    (fun course => .ok (Assignment.evaluated course.assignments)) rfl
  refine (run_bind_of_ok criteria).trans ((run_bind_of_ok assignments).trans ?_)
  -- the assignments come filtered, and are filtered again
  rw [Ruleset.ofCriteria_evaluated]
  cases Ruleset.ofCriteria course.criteria course.assignments <;> rfl

/-! ### Rejected criteria -/

section Rejected

variable {error : CriteriaError}
  (rejected : Ruleset.ofCriteria course.criteria course.assignments = .error error)
include rejected

theorem ruleset_of_rejected : (store.source.ruleset id).run = .error (.criteria error) := by
  rw [ruleset_of_known known, rejected]
  rfl

theorem statuses_of_rejected : (store.source.statuses id).run = .error (.criteria error) :=
  run_bind_of_error (ruleset_of_rejected known rejected)

theorem status_of_rejected :
    (store.source.status id participant).run = .error (.criteria error) :=
  run_bind_of_error (ruleset_of_rejected known rejected)

theorem breakdown_of_rejected :
    (store.source.breakdown id participant).run = .error (.criteria error) :=
  run_bind_of_error (ruleset_of_rejected known rejected)

end Rejected

/-! ### Built rules -/

section Built

variable {ruleset : Ruleset}
  (built : Ruleset.ofCriteria course.criteria course.assignments = .ok ruleset)
include built

theorem ruleset_of_built : (store.source.ruleset id).run = .ok ruleset := by
  rw [ruleset_of_known known, built]
  rfl

theorem statuses_of_built :
    (store.source.statuses id).run = .ok (course.participants.map ruleset.evaluate) := by
  refine (run_bind_of_ok (ruleset_of_built known built)).trans ?_
  exact run_bind_of_ok (run_ask_of_known known (fun course => .ok course.participants) rfl)

theorem status_of_built :
    (store.source.status id participant).run =
      (course.participant? participant).elim
        (.error (.source (.participantNotFound id participant)))
        fun listed => .ok (ruleset.evaluate listed) := by
  refine (run_bind_of_ok (ruleset_of_built known built)).trans ?_
  cases found : course.participant? participant with
  | some listed => exact run_bind_of_ok (run_participant_of_listed known found)
  | none => exact run_bind_of_error (run_participant_of_absent known found)

theorem breakdown_of_built :
    (store.source.breakdown id participant).run =
      (course.participant? participant).elim
        (.error (.source (.participantNotFound id participant)))
        fun listed => .ok (ruleset.breakdown listed) := by
  refine (run_bind_of_ok (ruleset_of_built known built)).trans ?_
  cases found : course.participant? participant with
  | some listed => exact run_bind_of_ok (run_participant_of_listed known found)
  | none => exact run_bind_of_error (run_participant_of_absent known found)

end Built

/-! ### Points -/

theorem pointsTable_of_known :
    (store.source.pointsTable id).run =
      .ok (PointsTable.compute course.assignments course.participants) := by
  have assignments := run_ask_of_known known
    (fun course => .ok (Assignment.evaluated course.assignments)) rfl
  have participants := run_ask_of_known known (fun course => .ok course.participants) rfl
  refine (run_bind_of_ok assignments).trans ((run_bind_of_ok participants).trans ?_)
  exact congrArg Except.ok (PointsTable.compute_evaluated _ _)

theorem pointsOf_of_known :
    (store.source.pointsOf id participant).run =
      (course.participant? participant).elim
        (.error (.source (.participantNotFound id participant)))
        fun listed => .ok (PointsTable.compute course.assignments [listed]) := by
  have assignments := run_ask_of_known known
    (fun course => .ok (Assignment.evaluated course.assignments)) rfl
  refine (run_bind_of_ok assignments).trans ?_
  cases found : course.participant? participant with
  | some listed =>
    refine (run_bind_of_ok (run_participant_of_listed known found)).trans ?_
    exact congrArg Except.ok (PointsTable.compute_evaluated _ _)
  | none => exact run_bind_of_error (run_participant_of_absent known found)

end Known

end Store

end ExamAdmission

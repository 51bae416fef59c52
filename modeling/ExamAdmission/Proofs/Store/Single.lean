/-
One participant and everybody.

The questions about one participant look a participant up where the others take all, and otherwise
do the same, in the same order.  So they are the questions about everybody, cut down to the first
participant with the identifier:

* `Ruleset.find?_evaluateAll`, `PointsTable.find?_rows` — the first status and the first row of an
  identifier are those of the first participant who has it;
* `Store.single_answers` — status, breakdown and points of one participant agree with the answers
  about everybody, errors included.
-/
import ExamAdmission.Proofs.Store.Answers

namespace ExamAdmission

/-- The first status of an identifier is the one of the first participant who has it. -/
theorem Ruleset.find?_evaluateAll (ruleset : Ruleset) (participants : List Participant)
    (id : ParticipantId) :
    (ruleset.evaluateAll participants).find? (·.participant = id) =
      (participants.find? (·.id = id)).map ruleset.evaluate := by
  rw [evaluateAll, List.find?_map]
  rfl

/-- The first row of an identifier is the one of the first participant who has it. -/
theorem PointsTable.find?_rows (assignments : List Assignment) (participants : List Participant)
    (id : ParticipantId) :
    (compute assignments participants).rows.find? (·.participant = id) =
      (participants.find? (·.id = id)).map (row (Assignment.evaluated assignments)) := by
  rw [compute, List.find?_map]
  rfl

namespace Store

variable {store : Store} {id : CourseId} {participant : ParticipantId}

/-- A course that has no statuses has none of one participant either, and no breakdown. -/
theorem single_of_statuses_error (participant : ParticipantId) {error : ServiceError}
    (failed : (store.source.statuses id).run = .error error) :
    (store.source.status id participant).run = .error error ∧
      (store.source.breakdown id participant).run = .error error := by
  cases found : store.course? id with
  | none =>
    rw [statuses_of_unknown found] at failed
    cases failed
    exact ⟨status_of_unknown found, breakdown_of_unknown found⟩
  | some course =>
    cases rules : Ruleset.ofCriteria course.criteria course.assignments with
    | error fault =>
      rw [statuses_of_rejected found rules] at failed
      cases failed
      exact ⟨status_of_rejected found rules, breakdown_of_rejected found rules⟩
    | ok ruleset =>
      rw [statuses_of_built found rules] at failed
      cases failed

/-- A course that has statuses has known participants and rules. -/
theorem exists_built_of_statuses_ok {statuses : List Status}
    (given : (store.source.statuses id).run = .ok statuses) :
    ∃ course ruleset, store.course? id = some course ∧
      Ruleset.ofCriteria course.criteria course.assignments = .ok ruleset ∧
      ruleset.evaluateAll course.participants = statuses := by
  cases found : store.course? id with
  | none =>
    rw [statuses_of_unknown found] at given
    cases given
  | some course =>
    cases rules : Ruleset.ofCriteria course.criteria course.assignments with
    | error fault =>
      rw [statuses_of_rejected found rules] at given
      cases given
    | ok ruleset =>
      rw [statuses_of_built found rules] at given
      exact ⟨course, ruleset, rfl, rules, Except.ok.inj given⟩

/-- The status of one participant is the first one with the identifier. -/
theorem status_of_statuses_ok {statuses : List Status}
    (given : (store.source.statuses id).run = .ok statuses) :
    (store.source.status id participant).run =
      (statuses.find? (·.participant = participant)).elim
        (.error (.source (.participantNotFound id participant))) .ok := by
  obtain ⟨course, ruleset, found, rules, rfl⟩ := exists_built_of_statuses_ok given
  rw [status_of_built found rules, Ruleset.find?_evaluateAll, Option.elim_map]
  rfl

/-- The breakdown fails exactly where the status does, and in the same way. -/
theorem breakdown_error_iff (error : ServiceError) :
    (store.source.breakdown id participant).run = .error error ↔
      (store.source.status id participant).run = .error error := by
  cases statuses : (store.source.statuses id).run with
  | error fault =>
    obtain ⟨status, breakdown⟩ := single_of_statuses_error participant statuses
    rw [status, breakdown, Except.error.injEq, Except.error.injEq]
  | ok statuses' =>
    obtain ⟨course, ruleset, found, rules, -⟩ := exists_built_of_statuses_ok statuses
    rw [status_of_built found rules, breakdown_of_built found rules]
    cases course.participant? participant with
    | none =>
      constructor
      · intro h
        cases h
        rfl
      · intro h
        cases h
        rfl
    | some listed =>
      constructor
      · intro h
        cases h
      · intro h
        cases h

/-- Without a table of points the course is not known, and has no points of one participant. -/
theorem pointsOf_of_pointsTable_error {error : ServiceError}
    (failed : (store.source.pointsTable id).run = .error error) :
    error = .source (.courseNotFound id) ∧
      (store.source.pointsOf id participant).run = .error error := by
  cases found : store.course? id with
  | none =>
    rw [pointsTable_of_unknown found] at failed
    cases failed
    exact ⟨rfl, pointsOf_of_unknown found⟩
  | some course =>
    rw [pointsTable_of_known found] at failed
    cases failed

/-- The points of one participant are the first row with the identifier, over the same
assignments. -/
theorem pointsOf_of_pointsTable_ok {table : PointsTable}
    (given : (store.source.pointsTable id).run = .ok table) :
    (store.source.pointsOf id participant).run =
      (table.rows.find? (·.participant = participant)).elim
        (.error (.source (.participantNotFound id participant)))
        fun row => .ok ⟨table.assignments, [row]⟩ := by
  cases found : store.course? id with
  | none =>
    rw [pointsTable_of_unknown found] at given
    cases given
  | some course =>
    rw [pointsTable_of_known found] at given
    cases given
    rw [pointsOf_of_known found, PointsTable.find?_rows, Option.elim_map]
    rfl

/-- **The answers about one participant are those about everybody, cut down to one.**  In every
store, whatever keeps a course from having statuses keeps it from having one of a participant, and
from a breakdown; otherwise the status is the first one with the identifier, and the breakdown fails
exactly where the status does.  The points are the first row of the identifier in the same table.
A status is what the rules say about the participant found, since a list of one has a status. -/
theorem single_answers (store : Store) (id : CourseId) (participant : ParticipantId) :
    (∀ error, (store.source.statuses id).run = .error error →
      (store.source.status id participant).run = .error error ∧
        (store.source.breakdown id participant).run = .error error) ∧
    (∀ statuses, (store.source.statuses id).run = .ok statuses →
      (store.source.status id participant).run =
        (statuses.find? (·.participant = participant)).elim
          (.error (.source (.participantNotFound id participant))) .ok) ∧
    (∀ error, (store.source.breakdown id participant).run = .error error ↔
      (store.source.status id participant).run = .error error) ∧
    (∀ error, (store.source.pointsTable id).run = .error error →
      error = .source (.courseNotFound id) ∧
        (store.source.pointsOf id participant).run = .error error) ∧
    (∀ table, (store.source.pointsTable id).run = .ok table →
      (store.source.pointsOf id participant).run =
        (table.rows.find? (·.participant = participant)).elim
          (.error (.source (.participantNotFound id participant)))
          fun row => .ok ⟨table.assignments, [row]⟩) ∧
    (∀ (ruleset : Ruleset) listed, (ruleset.evaluateAll [listed]).getLast? ≠ none) ∧
    store.source.status id participant = do
      let ruleset ← store.source.ruleset id
      let listed ← Source.ask (store.source.participant id participant)
      return ruleset.evaluate listed := by
  refine ⟨?_, ?_, breakdown_error_iff, ?_, ?_, ?_, Source.status_eq _ _ _⟩
  · intro error failed
    exact single_of_statuses_error participant failed
  · intro statuses given
    exact status_of_statuses_ok given
  · intro error failed
    exact pointsOf_of_pointsTable_error failed
  · intro table given
    exact pointsOf_of_pointsTable_ok given
  · intro ruleset listed
    exact Option.some_ne_none (ruleset.evaluate listed)

end Store

end ExamAdmission

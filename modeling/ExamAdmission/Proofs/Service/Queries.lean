/-
In which order a source is asked.

Each of the five questions about a course has a fixed row of queries.  A source is asked them one
after the other, up to the first that it does not answer; where rules are needed they are built
between the assignments and the query about participants, so that rejected criteria end the answer
before anybody's data is asked for.

* `Question.queries` — the row of queries of a question;
* `Question.Asks` — what a question asks of a source that writes its queries down, and how it ends;
* `Question.Fate` — the ways in which a question may end, and what was asked until then;
* `Question.Follows.ask_next` — one query more, at the end of the row;
* `Question.asked_in_order` — **every question ends in one of these ways**, and asking others before
  changes nothing.
-/
import ExamAdmission.Service
import Mathlib.Data.List.Infix

namespace ExamAdmission

/-- The questions that can be asked about a course. -/
inductive Question
  | statuses
  | status (id : ParticipantId)
  | breakdown (id : ParticipantId)
  | pointsTable
  | pointsOf (id : ParticipantId)
  deriving DecidableEq

/-- The error of an answer that is none. -/
def failure? {ε α : Type} : Except ε α → Option ε
  | .error error => some error
  | .ok _ => none

theorem failure?_map {ε α β : Type} (f : α → β) (result : Except ε α) :
    failure? (result.map f) = failure? result := by
  cases result with
  | ok value => rfl
  | error error => rfl

namespace Question

/-- What answers a question. -/
def Answer : Question → Type
  | statuses => List Status
  | status _ => Status
  | breakdown _ => List Breakdown
  | pointsTable => PointsTable
  | pointsOf _ => PointsTable

/-- Puts a question about a course to a source. -/
def put {m : Type → Type} [Monad m] (question : Question) (source : Source m) (course : CourseId) :
    ExceptT ServiceError m question.Answer :=
  match question with
  | statuses => source.statuses course
  | status id => source.status course id
  | breakdown id => source.breakdown course id
  | pointsTable => source.pointsTable course
  | pointsOf id => source.pointsOf course id

/-- Rules are needed for verdicts and breakdowns. -/
def needsRules : Question → Bool
  | statuses | status _ | breakdown _ => true
  | pointsTable | pointsOf _ => false

/-- The participant that a question is about, if it is about one. -/
def participant? : Question → Option ParticipantId
  | statuses | pointsTable => none
  | status id | breakdown id | pointsOf id => some id

/-- The row of queries of a question. -/
def queries : Question → List Query
  | statuses => [.criteria, .assignments, .participants]
  | status _ | breakdown _ => [.criteria, .assignments, .participant]
  | pointsTable => [.assignments, .participants]
  | pointsOf _ => [.assignments, .participant]

section Failures

variable (source : Source Id) (course : CourseId)

/-- The error with which a source refuses a query that belongs to a question. -/
def refusal? (question : Question) : Query → Option SourceError
  | .assignments => failure? (source.assignments course)
  | .criteria => failure? (source.criteria course)
  | .participants => failure? (source.participants course)
  | .participant => question.participant?.bind fun id => failure? (source.participant course id)

/-- The error of the criteria, where a question needs rules and the source gives criteria that make
none. -/
def rejection? (question : Question) : Option CriteriaError :=
  if question.needsRules then
    match source.criteria course, source.assignments course with
    | .ok criteria, .ok assignments => failure? (Ruleset.ofCriteria criteria assignments)
    | _, _ => none
  else none

end Failures

/-! ### What is asked -/

/-- One way to answer, from a source that writes its queries down and from the source itself: these
queries are asked whatever was asked before, and both end with this result. -/
structure Asks {α : Type} (logged : ExceptT ServiceError (StateM (List Query)) α)
    (plain : ExceptT ServiceError Id α) (asked : List Query) (result : Except ServiceError α) :
    Prop where
  logs : ∀ before, logged.run.run before = (result, before ++ asked)
  gives : plain.run = result

section Steps

variable {α β : Type} {logged : ExceptT ServiceError (StateM (List Query)) α}
  {plain : ExceptT ServiceError Id α} {next : α → ExceptT ServiceError (StateM (List Query)) β}
  {plainNext : α → ExceptT ServiceError Id β} {asked more : List Query}

theorem asks_pure (value : α) : Asks (pure value) (pure value) [] (.ok value) where
  logs before := by
    rw [List.append_nil]
    rfl
  gives := rfl

theorem asks_throw (error : ServiceError) :
    Asks (throw error) (throw error) [] (.error error : Except ServiceError α) where
  logs before := by
    rw [List.append_nil]
    rfl
  gives := rfl

/-- A query is written down whether it is answered or not. -/
theorem asks_query_of_ok (query : Query) {answer : Except SourceError α} {value : α}
    (given : answer = .ok value) :
    Asks (Source.ask (Source.log query answer)) (Source.ask (m := Id) answer) [query]
      (.ok value) := by
  subst given
  exact ⟨fun _ => rfl, rfl⟩

theorem asks_query_of_error (query : Query) {answer : Except SourceError α} {error : SourceError}
    (failed : answer = .error error) :
    Asks (Source.ask (Source.log query answer)) (Source.ask (m := Id) answer) [query]
      (.error (.source error)) := by
  subst failed
  exact ⟨fun _ => rfl, rfl⟩

/-- What follows an answer is asked after it. -/
theorem Asks.bind {value : α} {result : Except ServiceError β}
    (first : Asks logged plain asked (.ok value))
    (second : Asks (next value) (plainNext value) more result) :
    Asks (logged >>= next) (plain >>= plainNext) (asked ++ more) result where
  logs before := by
    rw [ExceptT.run_bind, StateT.run_bind, first.logs, ← List.append_assoc]
    exact second.logs _
  gives := by
    rw [ExceptT.run_bind, first.gives]
    exact second.gives

/-- What follows an error is not asked. -/
theorem Asks.bind_error {error : ServiceError} (failed : Asks logged plain asked (.error error)) :
    Asks (logged >>= next) (plain >>= plainNext) asked (.error error) where
  logs before := by
    rw [ExceptT.run_bind, StateT.run_bind, failed.logs]
    rfl
  gives := by
    rw [ExceptT.run_bind, failed.gives]
    rfl

end Steps

/-! ### How a row of queries ends -/

/-- The ways in which a row of queries ends: all of them are answered, one is the first that is
refused, or the criteria are rejected.  With each goes what was asked until then. -/
inductive Fate (refusal? : Query → Option SourceError) (rejection? : Option CriteriaError)
    (queries : List Query) {α : Type} : List Query → Except ServiceError α → Prop
  | answered (value : α) (given : ∀ query ∈ queries, refusal? query = none)
      (accepted : rejection? = none) : Fate refusal? rejection? queries queries (.ok value)
  | refused (before after : List Query) {query : Query} {error : SourceError}
      (order : queries = before ++ query :: after) (given : ∀ query ∈ before, refusal? query = none)
      (failed : refusal? query = some error) (accepted : rejection? = none) :
      Fate refusal? rejection? queries (before ++ [query]) (.error (.source error))
  | rejected (rest : List Query) {error : CriteriaError}
      (order : queries = .criteria :: .assignments :: rest)
      (given : ∀ query ∈ [Query.criteria, Query.assignments], refusal? query = none)
      (failed : rejection? = some error) :
      Fate refusal? rejection? queries [.criteria, .assignments] (.error (.criteria error))

/-- What is asked goes along a row of queries, and ends in one of the ways that a row may end. -/
def Follows {α : Type} (refusal? : Query → Option SourceError) (rejection? : Option CriteriaError)
    (queries : List Query) (logged : ExceptT ServiceError (StateM (List Query)) α)
    (plain : ExceptT ServiceError Id α) : Prop :=
  ∃ asked result, Asks logged plain asked result ∧ Fate refusal? rejection? queries asked result

section Rows

variable {α β γ : Type} {refusal? : Query → Option SourceError}
  {rejection? : Option CriteriaError} {queries : List Query}
  {logged : ExceptT ServiceError (StateM (List Query)) α} {plain : ExceptT ServiceError Id α}

/-- The first query of a row. -/
theorem follows_query {query : Query} {answer : Except SourceError α}
    (same : refusal? query = failure? answer) :
    Follows refusal? none [query] (Source.ask (Source.log query answer))
      (Source.ask (m := Id) answer) := by
  cases answer with
  | ok value =>
    exact ⟨_, _, asks_query_of_ok query rfl,
      .answered value (List.forall_mem_singleton.mpr same) rfl⟩
  | error error =>
    exact ⟨_, _, asks_query_of_error query rfl, .refused [] [] rfl nofun same rfl⟩

/-- One query more, at the end of the row. -/
theorem Follows.ask_next (first : Follows refusal? rejection? queries logged plain) {query : Query}
    {answer : Except SourceError β} (same : refusal? query = failure? answer) (f : α → β → γ) :
    Follows refusal? rejection? (queries ++ [query])
      (logged >>= fun a => Source.ask (Source.log query answer) >>= fun b => pure (f a b))
      (plain >>= fun a => Source.ask (m := Id) answer >>= fun b => pure (f a b)) := by
  obtain ⟨asked, result, asks, fate⟩ := first
  cases fate with
  | answered value given accepted =>
    cases answer with
    | ok last =>
      have step : Asks (Source.ask (Source.log query (.ok last)) >>= fun b => pure (f value b))
          (Source.ask (m := Id) (.ok last) >>= fun b => pure (f value b)) [query]
          (.ok (f value last)) :=
        (asks_query_of_ok query rfl).bind (asks_pure _)
      refine ⟨_, _, asks.bind step, .answered _ (fun other mem => ?_) accepted⟩
      rcases List.mem_append.mp mem with mem | mem
      · exact given other mem
      · exact List.mem_singleton.mp mem ▸ same
    | error error =>
      have step : Asks (Source.ask (Source.log query (.error error)) >>= fun b => pure (f value b))
          (Source.ask (m := Id) (.error error) >>= fun b => pure (f value b)) [query]
          (.error (.source error)) :=
        (asks_query_of_error query rfl).bind_error
      exact ⟨_, _, asks.bind step, .refused queries [] rfl given same accepted⟩
  | refused before after order given failed accepted =>
    refine ⟨_, _, asks.bind_error, .refused before (after ++ [query]) ?_ given failed accepted⟩
    rw [order, List.append_assoc, List.cons_append]
  | rejected rest order given failed =>
    refine ⟨_, _, asks.bind_error, .rejected (rest ++ [query]) ?_ given failed⟩
    rw [order, List.cons_append, List.cons_append]

end Rows

/-! ### The questions -/

section Questions

variable (source : Source Id) (course : CourseId)

/-- The rules of a course are built from the answers to two queries. -/
theorem follows_ruleset {question : Question} (needs : question.needsRules = true) :
    Follows (question.refusal? source course) (question.rejection? source course)
      [.criteria, .assignments] (source.logged.ruleset course) (source.ruleset course) := by
  -- the first of the two queries that fails ends the row; only after both can criteria be rejected
  cases criteria : source.criteria course with
  | error error =>
    have accepted : question.rejection? source course = none := by
      rw [rejection?, if_pos needs, criteria]
    exact ⟨_, _, (asks_query_of_error .criteria criteria).bind_error,
      .refused [] [.assignments] rfl nofun (congrArg failure? criteria) accepted⟩
  | ok criteria' =>
    have first := asks_query_of_ok .criteria criteria
    have given : question.refusal? source course .criteria = none := congrArg failure? criteria
    cases assignments : source.assignments course with
    | error error =>
      have accepted : question.rejection? source course = none := by
        rw [rejection?, if_pos needs, criteria, assignments]
      exact ⟨_, _, first.bind (asks_query_of_error .assignments assignments).bind_error,
        .refused [.criteria] [] rfl (List.forall_mem_singleton.mpr given)
          (congrArg failure? assignments) accepted⟩
    | ok assignments' =>
      have second := asks_query_of_ok .assignments assignments
      have both : ∀ query ∈ [Query.criteria, .assignments],
          question.refusal? source course query = none :=
        List.forall_mem_cons.mpr
          ⟨given, List.forall_mem_singleton.mpr (congrArg failure? assignments)⟩
      have rejection : question.rejection? source course =
          failure? (Ruleset.ofCriteria criteria' assignments') := by
        rw [rejection?, if_pos needs, criteria, assignments]
      cases built : Ruleset.ofCriteria criteria' assignments' with
      | ok ruleset =>
        rw [built] at rejection
        refine ⟨_, .ok ruleset, first.bind (second.bind ?_), .answered ruleset both rejection⟩
        rw [built]
        exact asks_pure ruleset
      | error error =>
        rw [built] at rejection
        refine ⟨_, .error (.criteria error), first.bind (second.bind ?_),
          .rejected [] rfl both rejection⟩
        rw [built]
        exact asks_throw _

/-- **What a question asks goes along its row of queries.** -/
theorem follows_put (question : Question) :
    Follows (question.refusal? source course) (question.rejection? source course) question.queries
      (question.put source.logged course) (question.put source course) := by
  cases question with
  | statuses => exact (follows_ruleset source course rfl).ask_next rfl Ruleset.evaluateAll
  | status id => exact (follows_ruleset source course rfl).ask_next rfl Ruleset.evaluate
  | breakdown id => exact (follows_ruleset source course rfl).ask_next rfl Ruleset.breakdown
  | pointsTable => exact (follows_query rfl).ask_next rfl PointsTable.compute
  | pointsOf id =>
    exact (follows_query rfl).ask_next rfl fun assignments participant =>
      PointsTable.compute assignments [participant]

end Questions

/-! ### What the source sees, and what it decides -/

/-- The queries of a row were asked in order, up to the first that was refused, and what the source
answered decides how that ended. -/
structure IsInOrder (refusal? : Query → Option SourceError) (rejection? : Option CriteriaError)
    (queries : List Query) {α : Type} (asked : List Query) (result : Except ServiceError α) :
    Prop where
  isPrefix : asked <+: queries
  /-- A query that is refused is the last one, and its error is passed on as it is. -/
  stops : ∀ query ∈ asked, ∀ error, refusal? query = some error →
    asked.getLast? = some query ∧ result = .error (.source error)
  /-- No error of the source is made up. -/
  passedOn : ∀ error, result = .error (.source error) →
    ∃ query ∈ asked, refusal? query = some error
  rejected_iff : ∀ error, result = .error (.criteria error) ↔ rejection? = some error
  /-- Criteria are rejected before anybody's data is asked for. -/
  rejected_early : ∀ error, result = .error (.criteria error) →
    asked = [.criteria, .assignments]
  answered_iff : result.isOk = true ↔
    (∀ query ∈ queries, refusal? query = none) ∧ rejection? = none
  answered_whole : result.isOk = true → asked = queries

theorem Fate.isInOrder {α : Type} {refusal? : Query → Option SourceError}
    {rejection? : Option CriteriaError} {queries asked : List Query}
    {result : Except ServiceError α} (fate : Fate refusal? rejection? queries asked result) :
    IsInOrder refusal? rejection? queries asked result := by
  cases fate with
  | answered value given accepted =>
    refine ⟨List.prefix_rfl, fun query mem error failed => ?_, nofun, ?_, nofun, ?_, fun _ => rfl⟩
    · cases (given query mem).symm.trans failed
    · simp [accepted]
    · exact iff_of_true rfl ⟨given, accepted⟩
  | @refused before after query error order given failed accepted =>
    refine ⟨⟨after, ?_⟩, fun other mem fault refused => ?_, fun fault same => ?_, ?_, nofun, ?_,
      nofun⟩
    · rw [order, List.append_assoc, List.singleton_append]
    · -- the queries before it were answered
      rcases List.mem_append.mp mem with mem | mem
      · cases (given other mem).symm.trans refused
      · obtain rfl := List.mem_singleton.mp mem
        obtain rfl := Option.some.inj (failed.symm.trans refused)
        exact ⟨List.getLast?_concat, rfl⟩
    · cases same
      exact ⟨query, List.mem_append_right before List.mem_cons_self, failed⟩
    · simp [accepted]
    · refine iff_of_false nofun fun ⟨all, _⟩ => ?_
      have mem : query ∈ queries := order ▸ List.mem_append_right before List.mem_cons_self
      cases (all query mem).symm.trans failed
  | @rejected rest error order given failed =>
    refine ⟨⟨rest, order.symm⟩, fun other mem fault refused => ?_, nofun, fun fault => ?_,
      fun _ _ => rfl, ?_, nofun⟩
    · cases (given other mem).symm.trans refused
    · simp [failed]
    · refine iff_of_false nofun fun ⟨_, accepted⟩ => ?_
      cases accepted.symm.trans failed

theorem nodup_queries (question : Question) : question.queries.Nodup := by
  cases question <;> simp [queries]

/-! ### One question after the other -/

/-- Steps that write more down, but whose values do not depend on what was written before. -/
theorem run_mapM_of_writes {α β γ : Type} {step : α → StateM (List β) γ} {value : α → γ}
    (writes : ∀ a before, ∃ more, (step a).run before = (value a, before ++ more)) (as : List α)
    (before : List β) : ∃ more, (as.mapM step).run before = (as.map value, before ++ more) := by
  induction as generalizing before with
  | nil => exact ⟨[], by rw [List.append_nil]; rfl⟩
  | cons a as ih =>
    obtain ⟨first, hfirst⟩ := writes a before
    obtain ⟨rest, hrest⟩ := ih (before ++ first)
    refine ⟨first ++ rest, ?_⟩
    rw [List.mapM_cons, StateT.run_bind, hfirst]
    -- the other steps start from what the first one wrote
    show (List.mapM step as >>= fun values => pure (value a :: values)).run (before ++ first) = _
    rw [StateT.run_bind, hrest, ← List.append_assoc]
    rfl

/-- The answers to questions that are put to a source one after the other. -/
def session {m : Type → Type} [Monad m] (source : Source m)
    (questions : List (CourseId × Question)) :
    m (List ((question : Question) × Except ServiceError question.Answer)) :=
  questions.mapM fun asked => do
    return ⟨asked.2, ← (asked.2.put source asked.1).run⟩

/-- Each question of a session is answered as if it were the only one. -/
theorem run_session (source : Source Id) (questions : List (CourseId × Question))
    (before : List Query) :
    ∃ more, (session source.logged questions).run before =
      (questions.map fun asked => ⟨asked.2, (asked.2.put source asked.1).run⟩,
        before ++ more) := by
  refine run_mapM_of_writes (fun asked before => ?_) questions before
  obtain ⟨more, result, asks, -⟩ := follows_put source asked.1 asked.2
  refine ⟨more, ?_⟩
  rw [StateT.run_bind, asks.logs, asks.gives]
  rfl

/-- **A source is asked in order, and the first query that it refuses ends the answer.**  The
queries of a question are different from each other, and those that are asked are the first ones of
its row.  A query that is refused is the last, and its error is passed on; criteria that make no
rules are rejected before anybody's data is asked for; and there is an answer exactly if no query of
the row is refused and no criteria are rejected.  A question that is put later, to the same source,
is answered as if it were the only one. -/
theorem asked_in_order (source : Source Id) :
    (∀ (course : CourseId) (question : Question), question.queries.Nodup ∧ ∃ asked result,
      Asks (question.put source.logged course) (question.put source course) asked result ∧
        IsInOrder (question.refusal? source course) (question.rejection? source course)
          question.queries asked result) ∧
    ∀ questions before, ∃ more, (session source.logged questions).run before =
      (questions.map fun asked => ⟨asked.2, (asked.2.put source asked.1).run⟩,
        before ++ more) := by
  refine ⟨fun course question => ⟨nodup_queries question, ?_⟩, run_session source⟩
  obtain ⟨asked, result, asks, fate⟩ := follows_put source course question
  exact ⟨asked, result, asks, fate.isInOrder⟩

end Question

end ExamAdmission

/-
What the report command leaves behind.

A command runs step by step, and the first step that fails ends it; what was printed before stays
printed.  So the outcome of a report in JSON is known from the store it reads and from what that
store answers:

* `Arguments.command?_report` — the arguments that ask for such a report on a file;
* `Program.ends_loadStore` — a file of courses that can be read and decoded becomes a store;
* `Program.defaultCourse_ofCourse` — a store with one course reports on that one;
* `Program.run_report` — the report prints the statuses of everybody, or nothing and tells why there
  are none.
-/
import ExamAdmission.Program

namespace ExamAdmission

/-! ### Arguments -/

/-- The arguments that ask for a report in JSON on a file of courses. -/
def Arguments.report (path : String) : List String :=
  ["admission", "report", "--json", "--snapshot", path]

/-- Any path can be asked for that is not empty and does not look like an option. -/
theorem Arguments.command?_report {path : String} (given : path ≠ "")
    (plain : isOption path = false) :
    command? (report path) = some (.report { snapshot := some path, json := true }) := by
  -- one option is read after the other, each by its rule
  have file : options reportRule { json := true } ["--snapshot", path] =
      some (some { snapshot := some path, json := true }) := by
    have name : longOption? "--snapshot" = some ("snapshot", none) := rfl
    have noHelp : isHelp "--snapshot" = false := rfl
    rw [options, if_neg (by decide), noHelp]
    simp [name, reportRule, plain, once, path?, given, options]
  have json : options reportRule {} ["--json", "--snapshot", path] =
      options reportRule { json := true } ["--snapshot", path] := by
    have name : longOption? "--json" = some ("json", none) := rfl
    have noHelp : isHelp "--json" = false := rfl
    rw [options, if_neg (by decide), noHelp]
    simp [name, reportRule]
  show command .report (options reportRule {} ["--json", "--snapshot", path]) = _
  rw [json, file, command]

namespace Program

variable {m : Type → Type} [Monad m] {α β : Type}

/-! ### Steps of a command -/

/-- A command that starts when `before` has been printed ends with a result when `after` has been
printed. -/
def Ends (program : Program m α) (before : List String) (result : Except Failure α)
    (after : List String) : Prop :=
  (ExceptT.run program).run before = pure (result, after)

section Steps

variable {program : Program m α} {next : α → Program m β} {before between after : List String}

theorem ends_pure (value : α) : Ends (pure value : Program m α) before (.ok value) before := rfl

/-- A question that is answered gives its answer, and one that is not ends the command. -/
theorem ends_answer (question : ExceptT ServiceError Id α) :
    Ends (answer question : Program m α) before (question.run.mapError .admission) before := by
  unfold answer orFail
  cases question.run with
  | ok value => rfl
  | error error => rfl

variable [LawfulMonad m]

theorem Ends.bind {value : α} {result : Except Failure β}
    (first : Ends program before (.ok value) between)
    (second : Ends (next value) between result after) :
    Ends (program >>= next) before result after := by
  unfold Ends at *
  rw [ExceptT.run_bind, StateT.run_bind, first, pure_bind]
  exact second

/-- The first step that fails ends the command. -/
theorem Ends.bind_error {error : Failure} (failed : Ends program before (.error error) after) :
    Ends (program >>= next) before (.error error) after := by
  unfold Ends at *
  rw [ExceptT.run_bind, StateT.run_bind, failed, pure_bind]
  rfl

theorem ends_print (lines : List String) :
    Ends (print lines : Program m Unit) before (.ok ()) (before ++ lines) := by
  unfold Ends print
  show (pure _ >>= _ : m _) = _
  rw [pure_bind]

end Steps

/-! ### Reports -/

/-- A store with one course reports on that one. -/
theorem defaultCourse_ofCourse (course : Course) :
    defaultCourse (Store.ofCourses [course]) = course.id := rfl

section Report

variable [LawfulMonad m] {surroundings : Surroundings m} {path text : String} {courses : List Course}

/-- A file of courses that can be read and decoded becomes a store. -/
theorem ends_loadStore (readable : surroundings.contents path = pure (.ok text))
    (decoded : Snapshot.layout.decoder.decode text.toUTF8.toList = .ok ⟨courses⟩)
    (before : List String) :
    Ends (loadStore surroundings (some path)) before (.ok (Store.ofCourses courses)) before := by
  have read : Ends (liftM (surroundings.contents path) : Program m (Except String String)) before
      (.ok (.ok text)) before := by
    unfold Ends
    rw [readable]
    simp
  refine read.bind ?_
  simp only [decodeSnapshot, decoded]
  exact ends_pure _

/-- What a report in JSON leaves behind: the statuses and nothing else, or why there are none. -/
def reported : Except ServiceError (List Status) → Outcome
  | .ok statuses => ⟨0, textOf [String.ofList (Json.list (statuses.map (·.toJson))).pretty], ""⟩
  | .error error => ⟨1, "", "application error: " ++ (Failure.admission error).message ++ "\n"⟩

/-- A report on a file of courses tells the statuses that a store with these courses gives. -/
theorem run_report (given : path ≠ "") (plain : Arguments.isOption path = false)
    (readable : surroundings.contents path = pure (.ok text))
    (decoded : Snapshot.layout.decoder.decode text.toUTF8.toList = .ok ⟨courses⟩) :
    run surroundings (Arguments.report path) =
      pure (reported ((Store.ofCourses courses).source.statuses
        (defaultCourse (Store.ofCourses courses))).run) := by
  have loaded := ends_loadStore readable decoded []
  have asked : Ends (answer ((Store.ofCourses courses).source.statuses
      (defaultCourse (Store.ofCourses courses))) : Program m _) [] _ [] := ends_answer _
  rw [run, Arguments.command?_report given plain]
  show outcome (report surroundings _) = _
  cases answered : ((Store.ofCourses courses).source.statuses
      (defaultCourse (Store.ofCourses courses))).run with
  | ok statuses =>
    rw [answered] at asked
    have ends : Ends (report surroundings { snapshot := some path, json := true }) [] (.ok ())
        ([] ++ [String.ofList (Json.list (statuses.map (·.toJson))).pretty]) :=
      loaded.bind (asked.bind (ends_print _))
    rw [outcome, ends, pure_bind]
    rfl
  | error error =>
    rw [answered] at asked
    have ends : Ends (report surroundings { snapshot := some path, json := true }) []
        (.error (.admission error)) [] :=
      loaded.bind asked.bind_error
    rw [outcome, ends, pure_bind]
    rfl

end Report

end Program

end ExamAdmission

/-
What the commands do.

A command prints lines and may fail; the lines printed before it fails stay printed.  Files are read
through a function that is given, so a command runs over any monad that can read them.  The command
that starts the service ends with the address; the answers to requests are those of `Api.respond`.
-/
import ExamAdmission.Failure
import ExamAdmission.Arguments
import ExamAdmission.Course.Demo
import ExamAdmission.Report
import ExamAdmission.Settings.LogFilter
import ExamAdmission.Store
import ExamAdmission.Wire.Answer

namespace ExamAdmission

/-- What a program finds where it runs. -/
structure Surroundings (m : Type → Type) where
  environment : Variables
  /-- The file of variables, if there is one. -/
  variablesFile : Option String
  /-- The text of a file, or the reason why it cannot be read. -/
  contents : String → m (Except String String)

/-- A command: it prints lines and may fail. -/
abbrev Program (m : Type → Type) := ExceptT Failure (StateT (List String) m)

/-- What a command leaves behind. -/
structure Outcome where
  exitCode : UInt32
  output : String
  errors : String

namespace Program

variable {m : Type → Type} [Monad m]

/-- Prints lines. -/
def print (lines : List String) : Program m Unit := modify (· ++ lines)

/-- Goes on with a result, or fails. -/
def orFail {α ε : Type} (wrap : ε → Failure) : Except ε α → Program m α
  | .ok value => return value
  | .error error => throw (wrap error)

/-- The answer of a source. -/
def answer {α : Type} (question : ExceptT ServiceError Id α) : Program m α :=
  orFail .admission question.run

/-- Decodes the text of a snapshot. -/
def decodeSnapshot (text : String) : Except Failure Store :=
  match Snapshot.layout.decoder.decode text.toUTF8.toList with
  | .ok snapshot => .ok (.ofCourses snapshot.courses)
  | .error fault => .error (.snapshot fault)

/-- The courses of a snapshot, or without one the course that comes with the service. -/
def loadStore (surroundings : Surroundings m) : Option String → Program m Store
  | none => return .ofCourses [Demo.course]
  | some path => do
    match ← (surroundings.contents path : m _) with
    | .error reason => throw (.io reason)
    | .ok text => orFail id (decodeSnapshot text)

/-- The course that is reported on unless another one is asked for. -/
def defaultCourse (store : Store) : CourseId := store.ids.head?.getD Demo.courseId

/-- Reports on the admission to a course. -/
def report (surroundings : Surroundings m) (options : ReportOptions) : Program m Unit := do
  let store ← loadStore surroundings options.snapshot
  let course := options.course.getD (defaultCourse store)
  let statuses ←
    match options.participant with
    | some participant => do
      let status ← answer (store.source.status course participant)
      pure [status]
    | none => answer (store.source.statuses course)
  if options.json then
    print [String.ofList (Json.list (statuses.map (·.toJson))).pretty]
  else print (Report.admissionLines course statuses)

/-- Prints the breakdowns of participants, one after the other. -/
def printBreakdowns (source : Source Id) (course : CourseId) :
    List ParticipantId → Program m Unit
  | [] => return
  | participant :: others => do
    let breakdowns ← answer (source.breakdown course participant)
    print (Report.breakdownsLines participant breakdowns)
    printBreakdowns source course others

/-- Shows the course that comes with the service. -/
def demo (options : DemoOptions) : Program m Unit := do
  let source := (Store.ofCourses [Demo.course]).source
  print ["Course admission demo"]
  let statuses ← answer (source.statuses Demo.courseId)
  print (Report.admissionLines Demo.courseId statuses)
  unless options.skipPoints do
    let table ← answer (source.pointsTable Demo.courseId)
    print (Report.pointsLines table)
  print ["", "Per-assignment breakdown"]
  printBreakdowns source Demo.courseId
    (match options.participant with
     | some participant => [participant]
     | none => statuses.map (·.participant))

/-- The settings with what the command line overrides. -/
def override (options : ServeOptions) (settings : Settings) : Settings :=
  { settings with
    host := options.host.getD settings.host
    port := options.port.getD settings.port
    snapshot := options.snapshot.orElse fun _ => settings.snapshot }

/-- Gets the service ready: the store it answers from, and the address it listens at. -/
def prepare (surroundings : Surroundings m) (options : ServeOptions) :
    Program m (Store × String) := do
  let vars := surroundings.environment.withFile surroundings.variablesFile
  let settings ← orFail .settings (Settings.ofVariables vars)
  let settings := override options settings
  match LogFilter.choose? (vars.lookup "RUST_LOG") settings.logLevel with
  | none => throw (.logging (.invalidFilter settings.logLevel))
  | some _ =>
    let store ← loadStore surroundings settings.snapshot
    let address ← orFail .settings settings.address
    return (store, address)

/-- The line that tells the version. -/
def versionLine : String := "Course Admission Service 0.1.0"

/-- How the program is called. -/
def usageLines : List String :=
  ["Evaluate exam admission rules for course participants",
   "",
   "Usage: exam-admission [serve] [--host HOST] [--port PORT] [--snapshot FILE]",
   "       exam-admission admission report [--snapshot FILE] [--course ID]",
   "           [--participant ID] [--json]",
   "       exam-admission demo [--participant ID] [--skip-points]"]

/-- Does what a command says. -/
def ofCommand (surroundings : Surroundings m) : Command → Program m Unit
  | .serve options => do
    let (_, address) ← prepare surroundings options
    print ["ready to listen at " ++ address]
  | .report options => report surroundings options
  | .demo options => demo options
  | .version => print [versionLine]
  | .help => print usageLines

/-- Lines as one text. -/
def textOf (lines : List String) : String := String.join (lines.map (· ++ "\n"))

/-- Runs a program to its end. -/
def outcome (program : Program m Unit) : m Outcome := do
  let (result, lines) ← program.run.run []
  return match result with
    | .ok () => ⟨0, textOf lines, ""⟩
    | .error error => ⟨1, textOf lines, "application error: " ++ error.message ++ "\n"⟩

/-- Runs the program that arguments ask for. -/
def run (surroundings : Surroundings m) (arguments : List String) : m Outcome :=
  match Arguments.command? arguments with
  | some command => outcome (ofCommand surroundings command)
  | none => return ⟨2, "", "error: invalid arguments\n\n" ++ textOf usageLines⟩

end Program

end ExamAdmission

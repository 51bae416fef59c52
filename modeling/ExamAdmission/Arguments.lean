/-
The arguments of the command line.

Options come in any order, each at most once, with their value behind an equals sign or as the next
argument, which then must not look like an option itself.  What does not fit is refused as a whole.
-/
import ExamAdmission.Settings.Basic

namespace ExamAdmission

/-- Settings that the command line overrides. -/
structure ServeOptions where
  host : Option String := none
  port : Option UInt16 := none
  snapshot : Option String := none
  deriving DecidableEq

/-- What to report on. -/
structure ReportOptions where
  snapshot : Option String := none
  course : Option String := none
  participant : Option String := none
  json : Bool := false
  deriving DecidableEq

/-- How to show the course that comes with the service. -/
structure DemoOptions where
  participant : Option String := none
  skipPoints : Bool := false
  deriving DecidableEq

/-- What to do. -/
inductive Command
  | serve (options : ServeOptions)
  | report (options : ReportOptions)
  | demo (options : DemoOptions)
  | version
  | help
  deriving DecidableEq

/-- What an option does to the options so far; nothing if it does not fit. -/
inductive OptionRule (σ : Type)
  | flag (set : σ → Option σ)
  | value (set : σ → String → Option σ)

namespace Arguments

/-- The option is given for the first time. -/
def once {σ α β : Type} (old : Option α) (value : Option β) (set : β → σ) : Option σ :=
  if old.isSome then none else value.map set

/-- The value of a port: an integer of 64 bits that is a port. -/
def port? (text : String) : Option UInt16 :=
  let digitsOf := fun (digits : List Char) =>
    if digits ≠ [] ∧ digits.all Char.isDigit then
      some (digits.foldl (fun n c => 10 * n + (c.toNat - 48)) 0)
    else none
  match text.toList with
  | '-' :: digits => ((digitsOf digits).filter (· = 0)).map (·.toUInt16)
  | '+' :: digits => ((digitsOf digits).filter (· < 65536)).map (·.toUInt16)
  | digits => ((digitsOf digits).filter (· < 65536)).map (·.toUInt16)

/-- A path must not be empty. -/
def path? (text : String) : Option String := if text = "" then none else some text

/-- The options of `serve`. -/
def serveRule : String → Option (OptionRule ServeOptions)
  | "host" => some (.value fun s v => once s.host (some v) fun v => { s with host := some v })
  | "port" => some (.value fun s v => once s.port (port? v) fun v => { s with port := some v })
  | "snapshot" =>
    some (.value fun s v => once s.snapshot (path? v) fun v => { s with snapshot := some v })
  | _ => none

/-- The options of `admission report`. -/
def reportRule : String → Option (OptionRule ReportOptions)
  | "snapshot" =>
    some (.value fun s v => once s.snapshot (path? v) fun v => { s with snapshot := some v })
  | "course" =>
    some (.value fun s v => once s.course (some v) fun v => { s with course := some v })
  | "participant" =>
    some (.value fun s v => once s.participant (some v) fun v => { s with participant := some v })
  | "json" => some (.flag fun s => if s.json then none else some { s with json := true })
  | _ => none

/-- The options of `demo`. -/
def demoRule : String → Option (OptionRule DemoOptions)
  | "participant" =>
    some (.value fun s v => once s.participant (some v) fun v => { s with participant := some v })
  | "skip-points" =>
    some (.flag fun s => if s.skipPoints then none else some { s with skipPoints := true })
  | _ => none

/-- The argument looks like an option. -/
def isOption (argument : String) : Bool :=
  match argument.toList with
  | '-' :: _ :: _ => true
  | _ => false

/-- The argument asks for help. -/
def isHelp (argument : String) : Bool :=
  match argument.toList with
  | '-' :: 'h' :: _ => true
  | _ => argument = "--help"

/-- The name of a long option, and the value behind its equals sign. -/
def longOption? (argument : String) : Option (String × Option String) :=
  match argument.toList with
  | '-' :: '-' :: rest =>
    let name := rest.takeWhile (· ≠ '=')
    some (String.ofList name,
      match rest.drop name.length with
      | [] => none
      | _ :: value => some (String.ofList value))
  | _ => none

/-- Reads options; `none` in the result asks for help. -/
def options {σ : Type} (rule : String → Option (OptionRule σ)) (state : σ) :
    List String → Option (Option σ)
  | [] => some (some state)
  | argument :: rest =>
    if argument = "--" then if rest = [] then some (some state) else none
    else if isHelp argument then some none
    else
      match longOption? argument with
      | none => none
      | some (name, given) =>
        match rule name, given, rest with
        | some (.flag set), none, rest => (set state).bind fun state => options rule state rest
        | some (.value set), some value, rest =>
          (set state value).bind fun state => options rule state rest
        | some (.value set), none, value :: rest =>
          if isOption value then none
          else (set state value).bind fun state => options rule state rest
        | _, _, _ => none

/-- The command with the options read, or help. -/
def command {σ : Type} (make : σ → Command) : Option (Option σ) → Option Command
  | none => none
  | some none => some .help
  | some (some state) => some (make state)

/-- The command of a list of arguments; nothing if they do not fit. -/
def command? : List String → Option Command
  | [] | ["--"] => some (.serve {})
  | "serve" :: rest => command .serve (options serveRule {} rest)
  | "demo" :: rest => command .demo (options demoRule {} rest)
  | "admission" :: "report" :: rest => command .report (options reportRule {} rest)
  | ["help"] | ["help", "serve"] | ["help", "demo"] | ["help", "admission"]
  | ["help", "admission", "report"] | ["admission", "help"] | ["admission", "help", "report"] =>
    some .help
  | "admission" :: argument :: _ => if isHelp argument then some .help else none
  | argument :: _ =>
    if isHelp argument then some .help
    else if argument = "--version" || argument.startsWith "-V" then some .version
    else none

end Arguments

end ExamAdmission

/-
The settings of the service, from environment variables.

* `Stage`: which stage of deployment the service runs in.
* `Settings.load`: the settings of an environment whose missing variables a file may supply.  The
  port is looked at first, then the path of the snapshot; nothing else can be at fault before the
  host is needed as an address.
* `Settings.address`: the address that the service listens at.
-/
import ExamAdmission.Settings.Address
import ExamAdmission.Settings.VariablesFile

namespace ExamAdmission

/-- A stage of deployment. -/
inductive Stage
  | development
  | test
  | production
  deriving DecidableEq

namespace Stage

/-- The name of a stage. -/
def label : Stage → String
  | development => "development"
  | test => "test"
  | production => "production"

/-- The stage that a text names, in letters of either case and with blanks around it; a text that
names none stands for development. -/
def ofString (text : String) : Stage :=
  let name := String.ofList ((trim text.toList).map Char.toLower)
  if name = "prod" ∨ name = "production" then production
  else if name = "test" ∨ name = "ci" then test
  else development

end Stage

/-- What is wrong with the settings. -/
inductive SettingsError
  | invalidPort
  | invalidHost
  | emptySnapshotPath
  deriving DecidableEq

/-- The wording of an error. -/
def SettingsError.message : SettingsError → String
  | invalidPort => "APP_PORT must be a valid u16"
  | invalidHost => "APP_HOST must parse to an IPv4 or IPv6 address"
  | emptySnapshotPath => "APP_COURSE_SNAPSHOT must not be empty when set"

/-- The settings of the service. -/
structure Settings where
  stage : Stage
  host : String
  port : UInt16
  logLevel : String
  /-- The file with the courses; without one the service has a course of its own. -/
  snapshot : Option String

namespace Settings

/-- The number that decimal digits stand for, if it is a port. -/
def portOfDigits? (digits : List Char) : Option UInt16 :=
  let value := digits.foldl (fun n c => 10 * n + (c.toNat - 48)) 0
  if digits ≠ [] ∧ digits.all Char.isDigit ∧ value < 65536 then some value.toUInt16 else none

/-- Reads a port: decimal digits, with an optional plus sign before them. -/
def port? (text : String) : Option UInt16 :=
  match text.toList with
  | '+' :: digits => portOfDigits? digits
  | digits => portOfDigits? digits

/-- The path of the snapshot, without the blanks around it; it may be absent, but not blank. -/
def snapshotPath (value : Option String) : Except SettingsError (Option String) :=
  match value with
  | none => .ok none
  | some text =>
    let path := trim text.toList
    if path = [] then .error .emptySnapshotPath else .ok (some (String.ofList path))

/-- The settings that variables give. -/
def ofVariables (vars : Variables) : Except SettingsError Settings := do
  let valueOr := fun name default => (vars.lookup name).getD default
  let port ←
    match port? (valueOr "APP_PORT" "3000") with
    | some port => .ok port
    | none => .error .invalidPort
  let snapshot ← snapshotPath (vars.lookup "APP_COURSE_SNAPSHOT")
  return {
    stage := .ofString (valueOr "APP_ENV" "development")
    host := valueOr "APP_HOST" "127.0.0.1"
    port := port
    logLevel := valueOr "APP_LOG_LEVEL" "info"
    snapshot := snapshot }

/-- The variables that are looked at. -/
def variableNames : List String :=
  ["APP_ENV", "APP_PORT", "APP_COURSE_SNAPSHOT", "APP_HOST", "APP_LOG_LEVEL", "RUST_LOG"]

/-- The settings of an environment, where a file may supply missing variables. -/
def load (environment : Variables) (file : Option String) : Except SettingsError Settings :=
  ofVariables (environment.withFile file)

/-- The address of this machine. -/
def loopback : Address := .v4 [127, 0, 0, 1]

/-- The address that a host and a port name. -/
def addressOf (host : String) (port : UInt16) : Except SettingsError String :=
  if host.toList.map Char.toLower = "localhost".toList then .ok (loopback.withPort port)
  else
    match Address.ofString? host with
    | some address => .ok (address.withPort port)
    | none => .error .invalidHost

/-- The address that the service listens at. -/
def address (settings : Settings) : Except SettingsError String :=
  addressOf settings.host settings.port

end Settings

end ExamAdmission

/-
The program: it runs a command over the files and the environment of the machine.
-/
import ExamAdmission.Program

namespace ExamAdmission

/-- Why a file cannot be read. -/
def ioReason : IO.Error → String
  | .noFileOrDirectory _ code details | .permissionDenied _ code details
  | .inappropriateType _ code details | .invalidArgument _ code details
  | .noSuchThing _ code details | .resourceExhausted _ code details
  | .otherError code details =>
    details ++ " (os error " ++ toString code ++ ")"
  | error => toString error

/-- The text of a file. -/
def readText (path : String) : IO (Except String String) := do
  match ← (IO.FS.readBinFile path).toBaseIO with
  | .error error => return .error (ioReason error)
  | .ok bytes =>
    match String.fromUTF8? bytes with
    | some text => return .ok text
    | none => return .error "stream did not contain valid UTF-8"

/-- The file of variables: the first one among these paths that there is. -/
def variablesFile : List String → IO (Option String)
  | [] => return none
  | path :: others => do
    match ← (IO.FS.readBinFile path).toBaseIO with
    | .ok bytes => return some (VariablesFile.textOf [] bytes.toList)
    | .error (.noFileOrDirectory ..) | .error (.inappropriateType ..) => variablesFile others
    | .error _ => return none

/-- The variables that the settings, or a file of variables, may ask for. -/
def environmentFor (file : Option String) : IO Variables := do
  let names := Settings.variableNames ++ (file.map VariablesFile.pieces).getD []
  names.filterMapM fun name => do
    return (← IO.getEnv name).map fun value => (name, value)

end ExamAdmission

open ExamAdmission in
/-- Runs the command that the arguments ask for. -/
def main (arguments : List String) : IO UInt32 := do
  let file ←
    match ← IO.currentDir.toBaseIO with
    | .ok directory => variablesFile (VariablesFile.paths directory.toString)
    | .error _ => pure none
  let outcome ← Program.run
    { environment := ← environmentFor file, variablesFile := file, contents := readText } arguments
  (← IO.getStdout).putStr outcome.output
  (← IO.getStderr).putStr outcome.errors
  return outcome.exitCode

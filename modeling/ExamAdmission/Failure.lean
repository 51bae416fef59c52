/-
What can go wrong in the service as a whole.
-/
import ExamAdmission.Json.Fault
import ExamAdmission.Service
import ExamAdmission.Settings.Basic

namespace ExamAdmission

/-- Why logging cannot be set up. -/
inductive LogError
  /-- The configured filter cannot be read. -/
  | invalidFilter (filter : String)
  | subscriber (reason : String)
  deriving DecidableEq

/-- The wording of an error. -/
def LogError.message : LogError → String
  | invalidFilter filter =>
    "invalid log level/filter '" ++ filter ++ "': unable to build EnvFilter"
  | subscriber reason => "telemetry error: " ++ reason

/-- What can go wrong in the service. -/
inductive Failure
  | settings (error : SettingsError)
  | logging (error : LogError)
  | io (reason : String)
  | snapshot (fault : Fault)
  | admission (error : ServiceError)
  deriving DecidableEq

namespace ServiceError

/-- The status of the HTTP response to a question without an answer. -/
def httpStatus : ServiceError → Nat
  | criteria _ => 422
  | source (.courseNotFound _) => 404
  | source (.participantNotFound _ _) => 404
  | source (.unavailable _) => 500

end ServiceError

namespace Failure

/-- The wording of the cause. -/
def cause : Failure → String
  | settings error => error.message
  | logging error => error.message
  | io reason => reason
  | snapshot fault => fault.message
  | admission error => error.message

/-- The part of the service where the cause lies. -/
def area : Failure → String
  | settings _ => "configuration"
  | logging _ => "telemetry"
  | io _ => "io"
  | snapshot _ => "course snapshot"
  | admission _ => "admission"

/-- The wording of an error. -/
def message (error : Failure) : String := error.area ++ " error: " ++ error.cause

/-- The status of the HTTP response to a request that fails. -/
def httpStatus : Failure → Nat
  | snapshot _ => 400
  | admission error => error.httpStatus
  | _ => 500

end Failure

end ExamAdmission

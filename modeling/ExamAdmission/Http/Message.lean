/-
HTTP requests and responses.

Of the headers only the type of what a response carries is kept.
-/
import ExamAdmission.Json.Value

namespace ExamAdmission

/-- A request. -/
structure Request where
  method : String
  /-- The path with its query. -/
  path : String
  body : List UInt8

/-- What a response carries. -/
inductive Body
  | empty
  | text (content : String)
  | json (content : Json)

/-- A response. -/
structure Response where
  status : Nat
  contentType : Option String
  body : Body

namespace Response

/-- A response that is only a status. -/
def bare (status : Nat) : Response := ⟨status, none, .empty⟩

/-- A response in JSON. -/
def json (status : Nat) (content : Json) : Response :=
  ⟨status, some "application/json", .json content⟩

/-- A response in plain text of the given type. -/
def text (status : Nat) (type content : String) : Response := ⟨status, some type, .text content⟩

/-- A response that tells an error. -/
def error (status : Nat) (message : String) : Response :=
  json status (.object [("error", .string message)])

/-- The response without what it carries. -/
def withoutBody (response : Response) : Response := { response with body := .empty }

end Response

end ExamAdmission

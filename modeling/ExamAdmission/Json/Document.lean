/-
JSON documents, as far as a text can be read.

A `Document` is what reading a text yields, whether or not the text is well-formed: the values read
so far in their order, and, where the text breaks off, what broke it off.  So the decision what the
first fault of a text is can be left to whoever reads the document in its order, wanting one value
or another at each place.

Two readers disagree on some faults: one that wants a value, and one that only passes over it.
Both look at the same document; a fault that they name differently is stored with both names, the
*strict* one first.

* `Document`: values, and the places where reading broke off.
* `Document.skip`: passes over a value, with the fault of its text if it has one.
* `ListEnd.fault?`, `ObjectEnd.fault?`: what a reader meets behind the last item or member.
-/
import ExamAdmission.Json.Fault

namespace ExamAdmission

/-- A number as it was written. -/
inductive Number
  /-- Written without point and exponent, and of at most 64 bits. -/
  | integer (value : Int)
  | float (value : Double)
  /-- Beyond all doubles. -/
  | tooLarge
  deriving DecidableEq

/-- A string whose grammar is in order; its escapes or its bytes may still be at fault. -/
abbrev Text := Except Fault String

/-- What a value starts with where its text breaks off. -/
inductive Start
  /-- With nothing that a value can start with. -/
  | nothing
  | word
  | number
  | string
  deriving DecidableEq

/-- What follows the last item of a list. -/
inductive ListEnd
  | closed
  /-- Something that is neither a comma nor a closing bracket. -/
  | missingComma
  /-- The end of the text. -/
  | ended
  /-- A comma, and then the closing bracket. -/
  | trailingComma
  /-- A comma, and then the end of the text. -/
  | endedAfterComma
  /-- Nothing: the text breaks off within the last item. -/
  | broken (lenient : Fault)
  deriving DecidableEq

/-- What follows the last member of an object. -/
inductive ObjectEnd
  | closed
  /-- Something that is neither a comma nor a closing brace. -/
  | missingComma
  /-- The end of the text. -/
  | ended
  /-- A comma, and then the closing brace. -/
  | trailingComma
  /-- A comma, and then the end of the text. -/
  | endedAfterComma
  /-- Something that is not a string, where a key belongs. -/
  | notKey
  /-- A key within which the text breaks off. -/
  | brokenKey (strict lenient : Fault)
  /-- A key without a colon behind it. -/
  | missingColon (key : Text) (fault : Fault)
  /-- Nothing: the text breaks off within the last value. -/
  | broken (lenient : Fault)

/-- A JSON text as far as it can be read. -/
inductive Document
  | null
  | boolean (value : Bool)
  | number (value : Number)
  | string (text : Text)
  | list (items : List Document) (stop : ListEnd)
  | object (members : List (Text × Document)) (stop : ObjectEnd)
  /-- The text breaks off within this value. -/
  | broken (start : Start) (strict lenient : Fault)

instance : Inhabited Document := ⟨.null⟩

namespace ListEnd

/-- What a reader that wants the items meets behind the last one. -/
def fault? : ListEnd → Option Fault
  | closed => none
  | missingComma => some .expectedListComma
  | ended => some .endInList
  | trailingComma => some .trailingComma
  | endedAfterComma => some .endInValue
  | broken lenient => some lenient

/-- What a reader that passes over the list meets behind the last item. -/
def skipFault? : ListEnd → Option Fault
  | trailingComma => some .expectedValue
  | stop => stop.fault?

end ListEnd

namespace ObjectEnd

/-- What a reader that passes over the object meets behind the last member. -/
def skipFault? : ObjectEnd → Option Fault
  | closed => none
  | missingComma => some .expectedObjectComma
  | ended | endedAfterComma => some .endInObject
  | trailingComma | notKey => some .keyNotString
  | brokenKey _ lenient => some lenient
  | missingColon _ fault => some fault
  | broken lenient => some lenient

end ObjectEnd

namespace Document

/-- The fault that a reader meets who passes over the value. -/
def skipFault? : Document → Option Fault
  | list _ stop => stop.skipFault?
  | object _ stop => stop.skipFault?
  | broken _ _ lenient => some lenient
  | _ => none

/-- Passes over the value. -/
def skip (d : Document) : Except Fault Unit :=
  match d.skipFault? with
  | some fault => .error fault
  | none => .ok ()

/-- What stands here, for a reader who wanted something else; the text may break off before that
can be told. -/
def found : Document → Except Fault Found
  | null => .ok .null
  | boolean value => .ok (.boolean value)
  | number (.integer value) => .ok (.integer value)
  | number (.float value) => .ok (.float value)
  | number .tooLarge => .error .numberOutOfRange
  | string (.ok text) => .ok (.string text)
  | string (.error fault) => .error fault
  | list _ _ => .ok .list
  | object _ _ => .ok .object
  | broken _ strict _ => .error strict

/-- The fault of a value that is not what was wanted. -/
def unlike (d : Document) (wanted : String) : Fault :=
  match d.found with
  | .ok found => .wrongType found wanted
  | .error fault => fault

end Document

end ExamAdmission

/-
Decoding documents into values.

A decoder wants a value of one kind at one place of a document and names the first fault it meets
in the order of the text.  Records are decoded through a draft, in which every field is absent at
first: a member with a known name fills its field, once; a member with an unknown name is passed
over; when the record ends, the draft has to hold every required field.  A record may also be
written as the list of its fields in their order of declaration.

* `Decoder`: from a document to a value or its first fault.
* `Decoder.text`, `double`, `word32`, `int32`, `boolean`, `optional`, `list`, `tag`: single values.
* `Layout`, `Layout.decoder`: records.
* `Decoder.decode`: a whole text; `Decoder.decodeWith` with a given way to read numbers.
-/
import ExamAdmission.Json.Reader

namespace ExamAdmission

/-- Reads a value off a document. -/
abbrev Decoder (α : Type) := Document → Except Fault α

namespace Decoder

/-- A string. -/
def text : Decoder String
  | .string text => text
  | d => .error (d.unlike "a string")

/-- A truth value. -/
def boolean : Decoder Bool
  | .boolean value => .ok value
  | d => .error (d.unlike "a boolean")

/-- A double; an integer stands for the double nearest to it. -/
def double : Decoder Double
  | .number (.integer value) => .ok (.ofInt value)
  | .number (.float value) => .ok value
  | d => .error (d.unlike "f64")

/-- A natural number of 32 bits. -/
def word32 : Decoder UInt32
  | .number (.integer value) =>
    if 0 ≤ value ∧ value < 4294967296 then .ok (UInt32.ofNat value.toNat)
    else .error (.wrongInteger value "u32")
  | d => .error (d.unlike "u32")

/-- An integer of 32 bits. -/
def int32 : Decoder Int32
  | .number (.integer value) =>
    if -2147483648 ≤ value ∧ value < 2147483648 then .ok (Int32.ofInt value)
    else .error (.wrongInteger value "i32")
  | d => .error (d.unlike "i32")

/-- A value, or null for none. -/
def optional {α : Type} (decoder : Decoder α) : Decoder (Option α)
  | .null => .ok none
  | d => (decoder d).map some

/-- Nothing but null. -/
def unit : Decoder Unit
  | .null => .ok ()
  | d => .error (d.unlike "unit")

/-- The items of a list, one after the other. -/
def list {α : Type} (decoder : Decoder α) : Decoder (List α)
  | .list items stop => do
    let values ← items.mapM decoder
    match stop.fault? with
    | none => .ok values
    | some fault => .error fault
  | d => .error (d.unlike "a sequence")

/-- One of several names: a string, or an object whose only member has the name and the value
null. -/
def tag {α : Type} (named : String → Except Fault α) : Decoder α
  | .string text => text.bind named
  | .object [] stop =>
    match stop with
    | .ended => .error .endInObject
    | .notKey => .error .keyNotString
    | .brokenKey strict _ => .error strict
    | .missingColon key fault => do
      let _ ← key.bind named
      .error fault
    | _ => .error .expectedValue
  | .object ((key, value) :: others) stop => do
    let result ← key.bind named
    unit value
    match others, stop with
    | [], .closed => .ok result
    | [], .ended => .error .endInObject
    | _, _ => .error .expectedValue
  | .broken start strict _ =>
    match start with
    | .nothing | .string => .error strict
    | .word | .number => .error .expectedValue
  | _ => .error .expectedValue

/-- One of the listed names, and no other. -/
def oneOf {α : Type} (names : List (String × α)) : Decoder α :=
  tag fun name =>
    match names.lookup name with
    | some value => .ok value
    | none => .error (.unknownName name (names.map (·.1)))

/-- One of the listed names; any other stands for `other`. -/
def oneOfOr {α : Type} (other : α) (names : List (String × α)) : Decoder α :=
  tag fun name => .ok ((names.lookup name).getD other)

end Decoder

/-- A field of a record whose draft is `σ`. -/
structure Field (σ : Type) where
  /-- The name of the member. -/
  name : String
  /-- The record cannot do without it. -/
  required : Bool
  /-- The draft holds it already. -/
  isSet : σ → Bool
  /-- Puts its value into the draft. -/
  read : Document → σ → Except Fault σ

namespace Field

/-- A field that the record cannot do without. -/
def needed {σ α : Type} (name : String) (decoder : Decoder α) (get : σ → Option α)
    (set : σ → α → σ) : Field σ where
  name := name
  required := true
  isSet draft := (get draft).isSome
  read document draft := (decoder document).map (set draft)

/-- A field that may be absent. -/
def optional {σ α : Type} (name : String) (decoder : Decoder α) (get : σ → Option α)
    (set : σ → α → σ) : Field σ :=
  { needed name decoder get set with required := false }

/-- A required field of a finished draft. -/
def require {α : Type} (name : String) : Option α → Except Fault α
  | some value => .ok value
  | none => .error (.missingField name)

end Field

/-- How a record is laid out: its fields in their order of declaration. -/
structure Layout (σ α : Type) where
  /-- The name of the record in messages. -/
  name : String
  fields : List (Field σ)
  /-- The draft with no field. -/
  empty : σ
  /-- The record of a draft, unless a required field is absent. -/
  finish : σ → Except Fault α

namespace Layout

variable {σ α : Type} (layout : Layout σ α)

/-- The field with this name. -/
def field? (name : String) : Option (Field σ) := layout.fields.find? (·.name = name)

/-- The members of an object, one after the other. -/
def readMembers : List (Text × Document) → σ → Except Fault σ
  | [], draft => .ok draft
  | (key, value) :: others, draft => do
    let name ← key
    match layout.field? name with
    | none =>
      value.skip
      readMembers others draft
    | some field =>
      if field.isSet draft then .error (.duplicateField name)
      else
        let draft ← field.read value draft
        readMembers others draft

/-- What follows the last member, and the record of the draft if nothing is wrong there. -/
def readObjectEnd (draft : σ) : ObjectEnd → Except Fault α
  | .closed => layout.finish draft
  | .missingComma => .error .expectedObjectComma
  | .ended => .error .endInObject
  | .trailingComma => .error .trailingComma
  | .endedAfterComma => .error .endInValue
  | .notKey => .error .keyNotString
  | .brokenKey strict _ => .error strict
  | .missingColon key fault => do
    let name ← key
    if (layout.field? name).any (·.isSet draft) then .error (.duplicateField name)
    else .error fault
  | .broken lenient => .error lenient

/-- The record in messages about the number of its fields. -/
def describeLength : String :=
  let count := layout.fields.length
  "struct " ++ layout.name ++ " with " ++ toString count ++
    (if count = 1 then " element" else " elements")

/-- The fields as items of a list; `index` fields have been read. -/
def readItems (stop : ListEnd) : Nat → List (Field σ) → List Document → σ → Except Fault σ
  | _, [], [], draft =>
    match stop with
    | .closed => .ok draft
    | .ended => .error .endInList
    | .trailingComma => .error .trailingComma
    | _ => .error .trailingCharacters
  | _, [], _ :: _, _ => .error .trailingCharacters
  | index, field :: fields, [], draft =>
    match stop.fault? with
    | some fault => .error fault
    | none =>
      if field.required then .error (.tooShort index layout.describeLength)
      else readItems stop (index + 1) fields [] draft
  | index, field :: fields, item :: items, draft => do
    let draft ← field.read item draft
    readItems stop (index + 1) fields items draft

/-- Reads a record. -/
def decoder : Decoder α
  | .object members stop => do
    let draft ← layout.readMembers members layout.empty
    layout.readObjectEnd draft stop
  | .list items stop => do
    let draft ← layout.readItems stop 0 layout.fields items layout.empty
    layout.finish draft
  | d => .error (d.unlike ("struct " ++ layout.name))

end Layout

namespace Decoder

variable {α : Type}

/-- Decodes a whole text; nothing but blanks may follow the value. -/
def decodeWith (reading : Numeral.Reading) (decoder : Decoder α) (bytes : List UInt8) :
    Except Fault α := do
  let (document, trailing) := Document.ofBytesWith reading bytes
  let value ← decoder document
  if trailing then .error .trailingCharacters else .ok value

/-- Decodes a whole text, its numbers read at a fixed cost. -/
def decode (decoder : Decoder α) (bytes : List UInt8) : Except Fault α :=
  decoder.decodeWith Numeral.scaled bytes

end Decoder

end ExamAdmission

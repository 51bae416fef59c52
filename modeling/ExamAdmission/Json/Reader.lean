/-
Reading a JSON text into a document.

The text is read once, byte by byte, by a machine that keeps the lists and objects under way on a
stack; one step looks at one byte, so a text is read by folding `State.step` over it, and reading
one text after another is reading the two in a row (`State.run_append`).  Where the grammar breaks,
reading stops, and what has been read so far is closed up into a document that says so.

* `State`: what has been read, and what the next byte has to be.
* `Document.ofBytes`: the document of a text, and whether something follows it.
-/
import ExamAdmission.Json.StringToken

namespace ExamAdmission

/-- A list or an object under way; what it holds so far is kept with the last one first. -/
inductive Frame
  | list (items : List Document)
  /-- An object, and the key whose value is being read. -/
  | object (members : List (Text × Document)) (key : Text)

/-- The lists and objects under way, the innermost one first. -/
abbrev Stack := List Frame

/-- Where a value stands. -/
inductive Slot
  /-- Behind a colon, or on its own. -/
  | only
  /-- Behind an opening bracket. -/
  | first
  /-- Behind a comma in a list. -/
  | next
  deriving DecidableEq

/-- How far a text has been read. -/
inductive State
  | beforeValue (slot : Slot) (stack : Stack)
  /-- Within a word; the characters still to come. -/
  | inWord (rest : List Char) (value : Document) (stack : Stack)
  | inNumeral (numeral : Numeral) (stack : Stack)
  | inString (token : StringToken) (stack : Stack)
  /-- Behind a complete value. -/
  | afterValue (value : Document) (stack : Stack)
  /-- Before the first key of an object, or before the key behind a comma. -/
  | beforeKey (first : Bool) (members : List (Text × Document)) (stack : Stack)
  | inKey (token : StringToken) (members : List (Text × Document)) (stack : Stack)
  | beforeColon (key : Text) (members : List (Text × Document)) (stack : Stack)
  /-- Reading has stopped; something may follow a complete document. -/
  | stopped (document : Document) (trailing : Bool)

/-- Blanks between the tokens of a text. -/
def isJsonBlank (c : Char) : Bool := c = ' ' || c = '\n' || c = '\t' || c = '\r'

namespace State

/-- Before the first byte of a text. -/
def start : State := .beforeValue .only []

/-- Closes up what is under way around a value within which the text breaks off. -/
def closeUp (lenient : Fault) : Stack → Document → Document
  | [], inner => inner
  | .list items :: stack, inner =>
    closeUp lenient stack (.list (inner :: items).reverse (.broken lenient))
  | .object members key :: stack, inner =>
    closeUp lenient stack (.object ((key, inner) :: members).reverse (.broken lenient))

/-- Stops within a value. -/
def stopBroken (start : Start) (strict lenient : Fault) (stack : Stack) : State :=
  .stopped (closeUp lenient stack (.broken start strict lenient)) false

/-- Stops behind the items of a list. -/
def stopList (items : List Document) (stop : ListEnd) (stack : Stack) : State :=
  .stopped (closeUp (stop.skipFault?.getD .expectedValue) stack (.list items.reverse stop)) false

/-- Stops behind the members of an object. -/
def stopObject (members : List (Text × Document)) (stop : ObjectEnd) (stack : Stack) : State :=
  .stopped (closeUp (stop.skipFault?.getD .expectedValue) stack (.object members.reverse stop))
    false

/-- The first character of a value. -/
def startValue (c : Char) (stack : Stack) : State :=
  if c = '"' then .inString .start stack
  else if c = '[' then .beforeValue .first (.list [] :: stack)
  else if c = '\x7b' then .beforeKey true [] stack
  else if c = 'n' then .inWord ['u', 'l', 'l'] .null stack
  else if c = 't' then .inWord ['r', 'u', 'e'] (.boolean true) stack
  else if c = 'f' then .inWord ['a', 'l', 's', 'e'] (.boolean false) stack
  else
    match Numeral.start? c with
    | some numeral => .inNumeral numeral stack
    | none => stopBroken .nothing .expectedValue .expectedValue stack

/-- A character before a value that is no blank. -/
def stepValue (c : Char) : Slot → Stack → State
  | .first, .list items :: stack =>
    if c = ']' then .afterValue (.list items.reverse .closed) stack
    else startValue c (.list items :: stack)
  | .next, .list items :: stack =>
    if c = ']' then stopList items .trailingComma stack
    else startValue c (.list items :: stack)
  | _, stack => startValue c stack

/-- A character behind a complete value that is no blank. -/
def stepAfter (c : Char) (value : Document) : Stack → State
  | [] => .stopped value true
  | .list items :: stack =>
    if c = ',' then .beforeValue .next (.list (value :: items) :: stack)
    else if c = ']' then .afterValue (.list (value :: items).reverse .closed) stack
    else stopList (value :: items) .missingComma stack
  | .object members key :: stack =>
    if c = ',' then .beforeKey false ((key, value) :: members) stack
    else if c = '\x7d' then .afterValue (.object ((key, value) :: members).reverse .closed) stack
    else stopObject ((key, value) :: members) .missingComma stack

/-- A character before a key that is no blank. -/
def stepKey (c : Char) (first : Bool) (members : List (Text × Document)) (stack : Stack) : State :=
  if c = '"' then .inKey .start members stack
  else if c = '\x7d' then
    if first then .afterValue (.object members.reverse .closed) stack
    else stopObject members .trailingComma stack
  else stopObject members .notKey stack

section Read

variable (reading : Numeral.Reading)

/-- Reads one byte. -/
def step (state : State) (b : UInt8) : State :=
  let c := Char.ofUInt8 b
  match state with
  | .beforeValue slot stack => if isJsonBlank c then state else stepValue c slot stack
  | .inWord [] value stack => .afterValue value stack
  | .inWord [last] value stack =>
    if c = last then .afterValue value stack
    else stopBroken .word .expectedWord .expectedWord stack
  | .inWord (next :: rest) value stack =>
    if c = next then .inWord rest value stack
    else stopBroken .word .expectedWord .expectedWord stack
  | .inNumeral numeral stack =>
    match numeral.step reading c with
    | .more numeral => .inNumeral numeral stack
    | .fault strict lenient => stopBroken .number strict lenient stack
    | .done number =>
      -- The byte belongs to what follows the number.
      if isJsonBlank c then .afterValue (.number number) stack
      else stepAfter c (.number number) stack
  | .inString token stack =>
    match token.step b with
    | .more token => .inString token stack
    | .done text => .afterValue (.string text) stack
    | .fault strict lenient => stopBroken .string strict lenient stack
  | .afterValue value stack => if isJsonBlank c then state else stepAfter c value stack
  | .beforeKey first members stack => if isJsonBlank c then state else stepKey c first members stack
  | .inKey token members stack =>
    match token.step b with
    | .more token => .inKey token members stack
    | .done key => .beforeColon key members stack
    | .fault strict lenient => stopObject members (.brokenKey strict lenient) stack
  | .beforeColon key members stack =>
    if isJsonBlank c then state
    else if c = ':' then .beforeValue .only (.object members key :: stack)
    else stopObject members (.missingColon key .expectedColon) stack
  | .stopped _ _ => state

/-- Reads bytes in a row. -/
def run (state : State) (bytes : List UInt8) : State := bytes.foldl (step reading) state

theorem run_append (state : State) (bytes more : List UInt8) :
    state.run reading (bytes ++ more) = (state.run reading bytes).run reading more :=
  List.foldl_append

/-- What the end of the text leaves behind a complete value. -/
def finishAfter (value : Document) : Stack → State
  | [] => .stopped value false
  | .list items :: stack => stopList (value :: items) .ended stack
  | .object members key :: stack => stopObject ((key, value) :: members) .ended stack

/-- What the end of the text leaves before a value. -/
def finishValue : Slot → Stack → State
  | .first, .list items :: stack => stopList items .ended stack
  | .next, .list items :: stack => stopList items .endedAfterComma stack
  | _, stack => stopBroken .nothing .endInValue .endInValue stack

/-- The text ends. -/
def finish : State → State
  | .beforeValue slot stack => finishValue slot stack
  | .inWord _ _ stack => stopBroken .word .endInValue .endInValue stack
  | .inNumeral numeral stack =>
    match numeral.finish reading with
    | .done number => finishAfter (.number number) stack
    | .fault strict lenient => stopBroken .number strict lenient stack
    | .more _ => stopBroken .number .endInValue .invalidNumber stack
  | .inString token stack =>
    match token.finish with
    | .fault strict lenient => stopBroken .string strict lenient stack
    | _ => stopBroken .string .endInString .endInString stack
  | .afterValue value stack => finishAfter value stack
  | .beforeKey first members stack =>
    stopObject members (if first then .ended else .endedAfterComma) stack
  | .inKey token members stack =>
    match token.finish with
    | .fault strict lenient => stopObject members (.brokenKey strict lenient) stack
    | _ => stopObject members (.brokenKey .endInString .endInString) stack
  | .beforeColon key members stack => stopObject members (.missingColon key .endInObject) stack
  | .stopped document trailing => .stopped document trailing

end Read

/-- The document that has been read, and whether something follows it. -/
def result : State → Document × Bool
  | .stopped document trailing => (document, trailing)
  | _ => (.broken .nothing .endInValue .endInValue, false)

end State

/-- The document of a text, and whether something other than blanks follows it. -/
def Document.ofBytesWith (reading : Numeral.Reading) (bytes : List UInt8) : Document × Bool :=
  ((State.start.run reading bytes).finish reading).result

/-- The document of a text, its numbers read at a fixed cost. -/
def Document.ofBytes (bytes : List UInt8) : Document × Bool := ofBytesWith Numeral.scaled bytes

end ExamAdmission

/-
What can be wrong with a JSON text.

A text that does not decode has a first fault, in the order in which the text is read.  Faults are
of three kinds: the text ends too early, it breaks the grammar, or it is well-formed where it was
read and says something else than what was wanted.

* `Fault`: the causes.
* `Fault.kind`, `Fault.message`: their kind and their wording.
-/
import ExamAdmission.Double.Text
import ExamAdmission.Text.Quoted

namespace ExamAdmission

/-- What stands in a text where something else was wanted. -/
inductive Found
  | null
  | boolean (value : Bool)
  | integer (value : Int)
  | float (value : Double)
  | string (text : String)
  | list
  | object
  deriving DecidableEq

/-- The wording of what was found. -/
def Found.describe : Found → String
  | null => "null"
  | boolean value => if value then "boolean `true`" else "boolean `false`"
  | integer value => "integer `" ++ toString value ++ "`"
  | float value => "floating point `" ++ (value.toWire?.map String.ofList).getD "NaN" ++ "`"
  | string text => "string " ++ quoted text
  | list => "sequence"
  | object => "map"

/-- The three kinds of faults. -/
inductive FaultKind
  /-- The text ends too early. -/
  | ended
  /-- The text breaks the grammar. -/
  | grammar
  /-- The text is well-formed and does not fit. -/
  | content
  deriving DecidableEq

/-- The first thing wrong with a JSON text. -/
inductive Fault
  | endInValue
  | endInString
  | endInList
  | endInObject
  | expectedValue
  | expectedWord
  | expectedColon
  | expectedListComma
  | expectedObjectComma
  | keyNotString
  | trailingComma
  | trailingCharacters
  | invalidNumber
  | numberOutOfRange
  | invalidEscape
  | controlCharacter
  /-- An escape for the first half of a surrogate pair, and no escape after it. -/
  | halfPairAlone
  /-- An escape for one half of a surrogate pair where the other half belongs. -/
  | wrongHalf
  /-- The bytes of a string are not UTF-8. -/
  | notUnicode
  /-- A value of another kind than the one wanted. -/
  | wrongType (found : Found) (wanted : String)
  /-- An integer out of the range wanted. -/
  | wrongInteger (found : Int) (wanted : String)
  /-- A list with too few items for the fields it stands for. -/
  | tooShort (length : Nat) (wanted : String)
  /-- A name that is none of the known ones. -/
  | unknownName (name : String) (known : List String)
  | missingField (name : String)
  | duplicateField (name : String)
  deriving DecidableEq

namespace Fault

/-- The kind of a fault. -/
def kind : Fault → FaultKind
  | endInValue | endInString | endInList | endInObject => .ended
  | wrongType .. | wrongInteger .. | tooShort .. | unknownName .. | missingField ..
  | duplicateField .. => .content
  | _ => .grammar

/-- A word in backquotes. -/
def inBackquotes (word : String) : String := "`" ++ word ++ "`"

/-- The wording of a fault. -/
def message : Fault → String
  | endInValue => "EOF while parsing a value"
  | endInString => "EOF while parsing a string"
  | endInList => "EOF while parsing a list"
  | endInObject => "EOF while parsing an object"
  | expectedValue => "expected value"
  | expectedWord => "expected ident"
  | expectedColon => "expected `:`"
  | expectedListComma => "expected `,` or `]`"
  | expectedObjectComma => "expected `,` or `\x7d`"
  | keyNotString => "key must be a string"
  | trailingComma => "trailing comma"
  | trailingCharacters => "trailing characters"
  | invalidNumber => "invalid number"
  | numberOutOfRange => "number out of range"
  | invalidEscape => "invalid escape"
  | controlCharacter => "control character (\\u0000-\\u001F) found while parsing a string"
  | halfPairAlone => "unexpected end of hex escape"
  | wrongHalf => "lone leading surrogate in hex escape"
  | notUnicode => "invalid unicode code point"
  | wrongType found wanted => "invalid type: " ++ found.describe ++ ", expected " ++ wanted
  | wrongInteger found wanted =>
    "invalid value: integer `" ++ toString found ++ "`, expected " ++ wanted
  | tooShort length wanted => "invalid length " ++ toString length ++ ", expected " ++ wanted
  | unknownName name known =>
    "unknown variant " ++ inBackquotes name ++ ", expected one of " ++
      ", ".intercalate (known.map inBackquotes)
  | missingField name => "missing field " ++ inBackquotes name
  | duplicateField name => "duplicate field " ++ inBackquotes name

end Fault

end ExamAdmission

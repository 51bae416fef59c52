/-
JSON values, and writing them.

* `Json`: a value to be written; the members of an object keep their order.
* `Json.compact`: without blanks; `Json.bytes` is that text in bytes.
* `Json.pretty`: a line for each item and member, indented by two blanks for each level.

Strings escape quotation marks, backslashes and control characters, and nothing else.  A double
that is not finite has no notation and is written as null.
-/
import ExamAdmission.Double.Text

namespace ExamAdmission

/-- A JSON value to be written. -/
inductive Json
  | null
  | boolean (value : Bool)
  | integer (value : Int)
  | float (value : Double)
  | string (text : String)
  | list (items : List Json)
  | object (members : List (String × Json))

instance : Inhabited Json := ⟨.null⟩

namespace Json

/-- One character of a string. -/
def escapeChar (c : Char) : List Char :=
  if c = '"' then ['\\', '"']
  else if c = '\\' then ['\\', '\\']
  else if c = '\n' then ['\\', 'n']
  else if c = '\r' then ['\\', 'r']
  else if c = '\t' then ['\\', 't']
  else if c.toNat = 8 then ['\\', 'b']
  else if c.toNat = 12 then ['\\', 'f']
  else if c.toNat < 32 then
    ['\\', 'u', '0', '0', (c.toNat / 16).digitChar, (c.toNat % 16).digitChar]
  else [c]

/-- A string in quotation marks. -/
def writeString (s : String) : List Char := '"' :: (s.toList.flatMap escapeChar ++ ['"'])

/-- An integer in decimal digits. -/
def writeInteger (n : Int) : List Char :=
  if n < 0 then '-' :: Nat.toDigits 10 n.natAbs else Nat.toDigits 10 n.natAbs

/-- A value that holds no other value. -/
def writeScalar : Json → List Char
  | boolean value => if value then ['t', 'r', 'u', 'e'] else ['f', 'a', 'l', 's', 'e']
  | integer value => writeInteger value
  | float value => value.toWire?.getD ['n', 'u', 'l', 'l']
  | string text => writeString text
  | _ => ['n', 'u', 'l', 'l']

mutual

/-- A value without blanks. -/
def compact : Json → List Char
  | list items => '[' :: (compactItems items ++ [']'])
  | object members => '\x7b' :: (compactMembers members ++ ['\x7d'])
  | scalar => writeScalar scalar

/-- Items with commas between them. -/
def compactItems : List Json → List Char
  | [] => []
  | [item] => compact item
  | item :: items => compact item ++ ',' :: compactItems items

/-- Members with commas between them. -/
def compactMembers : List (String × Json) → List Char
  | [] => []
  | [(key, value)] => writeString key ++ ':' :: compact value
  | (key, value) :: members =>
    writeString key ++ ':' :: (compact value ++ ',' :: compactMembers members)

end

/-- The text of a value without blanks, as it is sent. -/
def bytes (value : Json) : List UInt8 := (String.ofList value.compact).toUTF8.toList

/-- The end of a line, and the indentation of the next one. -/
def lineBreak (level : Nat) : List Char := '\n' :: List.replicate (2 * level) ' '

mutual

/-- A value on several lines; the line it starts on is indented by `level`. -/
def prettyAt (level : Nat) : Json → List Char
  | list [] => ['[', ']']
  | object [] => ['\x7b', '\x7d']
  | list items => '[' :: (prettyItems (level + 1) items ++ lineBreak level ++ [']'])
  | object members =>
    '\x7b' :: (prettyMembers (level + 1) members ++ lineBreak level ++ ['\x7d'])
  | scalar => writeScalar scalar

/-- Items on lines of their own. -/
def prettyItems (level : Nat) : List Json → List Char
  | [] => []
  | [item] => lineBreak level ++ prettyAt level item
  | item :: items => lineBreak level ++ prettyAt level item ++ ',' :: prettyItems level items

/-- Members on lines of their own. -/
def prettyMembers (level : Nat) : List (String × Json) → List Char
  | [] => []
  | [(key, value)] => lineBreak level ++ writeString key ++ ':' :: ' ' :: prettyAt level value
  | (key, value) :: members =>
    lineBreak level ++ writeString key ++ ':' :: ' ' ::
      (prettyAt level value ++ ',' :: prettyMembers level members)

end

/-- A value on several lines. -/
def pretty (value : Json) : List Char := prettyAt 0 value

/-- A value, or null for none. -/
def ofOption {α : Type} (encode : α → Json) : Option α → Json
  | some value => encode value
  | none => null

end Json

end ExamAdmission

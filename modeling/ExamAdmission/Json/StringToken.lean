/-
Strings in JSON texts, read one byte at a time.

A string is scanned to its closing quotation mark for its grammar: escapes, and no control
characters.  On the way its bytes are collected, and with them the first fault that only matters to
a reader who wants the string: surrogate halves that form no pair, and bytes that are not UTF-8,
which are looked at when the string is complete.
-/
import ExamAdmission.Json.Numeral

namespace ExamAdmission

/-- Where in a string the next byte stands. -/
inductive StringPlace
  | plain
  /-- Behind a backslash. -/
  | escape
  /-- Behind `\u` and these digits. -/
  | hex (digits : List Char)
  deriving DecidableEq

/-- A string as far as it has been read. -/
structure StringToken where
  place : StringPlace
  /-- The bytes so far, the last one first, or the first fault that hides them. -/
  bytes : Except Fault (List UInt8)
  /-- The first half of a surrogate pair, which the next escape has to complete. -/
  half : Option Nat

namespace StringToken

/-- Just behind the opening quotation mark. -/
def start : StringToken := ⟨.plain, .ok [], none⟩

/-- Takes bytes of the string. -/
def push (s : StringToken) (bytes : List UInt8) : StringToken :=
  { s with bytes := s.bytes.map (bytes.reverse ++ ·) }

/-- Notes a fault that the string's grammar does not know of; the first one stays. -/
def spoil (s : StringToken) (fault : Fault) : StringToken :=
  { s with bytes := s.bytes.bind fun _ => .error fault }

/-- What follows is not an escape that could complete a surrogate pair. -/
def settle (s : StringToken) : StringToken :=
  match s.half with
  | none => s
  | some _ => { s.spoil .halfPairAlone with half := none }

/-- The text breaks off within the string. -/
def breakOff (s : StringToken) (fault : Fault) : TokenStep StringToken Text :=
  match s.bytes with
  | .ok _ => .fault fault fault
  | .error first => .fault first fault

/-- The string, if its bytes are UTF-8. -/
def text (s : StringToken) : Text :=
  s.bytes.bind fun bytes =>
    match String.fromUTF8? ⟨bytes.reverse.toArray⟩ with
    | some text => .ok text
    | none => .error .notUnicode

/-- The byte that an escape of one letter stands for. -/
def escaped? (c : Char) : Option UInt8 :=
  if c = '"' then some 34
  else if c = '\\' then some 92
  else if c = '/' then some 47
  else if c = 'b' then some 8
  else if c = 'f' then some 12
  else if c = 'n' then some 10
  else if c = 'r' then some 13
  else if c = 't' then some 9
  else none

/-- The number that a hexadecimal digit stands for. -/
def hexDigit? (c : Char) : Option Nat :=
  if c.isDigit then some (c.toNat - 48)
  else if 'a' ≤ c ∧ c ≤ 'f' then some (c.toNat - 87)
  else if 'A' ≤ c ∧ c ≤ 'F' then some (c.toNat - 55)
  else none

/-- The number that hexadecimal digits stand for. -/
def hexValue? (digits : List Char) : Option Nat :=
  digits.foldlM (fun n c => (hexDigit? c).map (16 * n + ·)) 0

/-- The first half of a surrogate pair. -/
def isFirstHalf (unit : Nat) : Bool := 0xD800 ≤ unit && unit < 0xDC00

/-- The second half of a surrogate pair. -/
def isSecondHalf (unit : Nat) : Bool := 0xDC00 ≤ unit && unit < 0xE000

/-- Takes the character with this code point. -/
def pushCode (s : StringToken) (code : Nat) : StringToken :=
  s.push (String.utf8EncodeChar (Char.ofNat code))

/-- Takes the unit that four hexadecimal digits gave: a character, or half of a pair. -/
def pushUnit (s : StringToken) (unit : Nat) : StringToken :=
  let s := { s with place := .plain }
  match s.half with
  | none =>
    if isFirstHalf unit then { s with half := some unit }
    else if isSecondHalf unit then s.spoil .wrongHalf
    else s.pushCode unit
  | some first =>
    let s := { s with half := none }
    if isSecondHalf unit then s.pushCode (0x10000 + 0x400 * (first - 0xD800) + (unit - 0xDC00))
    else s.spoil .wrongHalf

/-- Takes the next byte. -/
def step (s : StringToken) (b : UInt8) : TokenStep StringToken Text :=
  let c := Char.ofUInt8 b
  match s.place with
  | .plain =>
    if c = '\\' then .more { s with place := .escape }
    else if c = '"' then .done s.settle.text
    else if b < 32 then s.settle.breakOff .controlCharacter
    else .more (s.settle.push [b])
  | .escape =>
    if c = 'u' then .more { s with place := .hex [] }
    else
      match escaped? c with
      | some byte => .more ({ s.settle with place := .plain }.push [byte])
      | none => s.settle.breakOff .invalidEscape
  | .hex digits =>
    let digits := digits ++ [c]
    if digits.length < 4 then .more { s with place := .hex digits }
    else
      match hexValue? digits with
      | some unit => .more (s.pushUnit unit)
      | none => s.breakOff .invalidEscape

/-- The text ends here, within the string. -/
def finish (s : StringToken) : TokenStep StringToken Text := s.breakOff .endInString

end StringToken

end ExamAdmission

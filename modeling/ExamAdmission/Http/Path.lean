/-
Paths of HTTP requests.

A path is split into segments at its slashes before anything else; an identifier is one segment,
percent-decoded, so it may hold a slash that was escaped.  An escape that is not one stays as it is,
and what the escapes decode to has to be UTF-8.

* `Path.segments`: the segments of a path without its query.
* `Path.decode?`, `Path.encode`: an identifier read from, and written as, a segment.
-/
import ExamAdmission.Json.StringToken

namespace ExamAdmission.Path

/-- The parts of a text between slashes. -/
def splitSlashes (current : List Char) : List Char → List (List Char)
  | [] => [current.reverse]
  | c :: rest =>
    if c = '/' then current.reverse :: splitSlashes [] rest else splitSlashes (c :: current) rest

/-- The segments of a path; a query or a fragment is no part of it. -/
def segments (path : String) : List String :=
  (splitSlashes [] (path.toList.takeWhile fun c => c ≠ '?' ∧ c ≠ '#')).map String.ofList

/-- The byte that two hexadecimal digits stand for. -/
def byte? (high low : Char) : Option UInt8 :=
  (StringToken.hexValue? [high, low]).map UInt8.ofNat

/-- The bytes of a segment, with its escapes replaced. -/
def decodeBytes : List Char → List UInt8
  | [] => []
  | '%' :: high :: low :: rest =>
    match byte? high low with
    | some byte => byte :: decodeBytes rest
    | none => 37 :: decodeBytes (high :: low :: rest)
  | c :: rest => String.utf8EncodeChar c ++ decodeBytes rest

/-- The identifier that a segment stands for. -/
def decode? (segment : String) : Option String :=
  String.fromUTF8? ⟨(decodeBytes segment.toList).toArray⟩

/-- A byte in a segment: an ASCII letter or digit stands for itself, and all else is escaped. -/
def encodeByte (byte : UInt8) : List Char :=
  let c := Char.ofUInt8 byte
  if c.isAlphanum then [c]
  else ['%', (byte.toNat / 16).digitChar.toUpper, (byte.toNat % 16).digitChar.toUpper]

/-- The segment for an identifier. -/
def encode (id : String) : String := String.ofList (id.toUTF8.toList.flatMap encodeByte)

end ExamAdmission.Path

/-
Which messages are logged.

A filter is a list of directives with commas between them.  A directive is a level, a target with a
level behind an equals sign, or a target alone, of which everything is logged.  A target starts with
a letter, a digit, a hyphen, a colon or an underscore, and may go on with any characters other than
an opening bracket; blanks are part of it.  Of two directives on the same target the later one
counts; a filter is shown with the more specific directives first.
-/
import ExamAdmission.Text.Alphanumeric
import ExamAdmission.Text.Blank

namespace ExamAdmission

/-- How important a message has to be. -/
inductive LogLevel
  | off
  | error
  | warn
  | info
  | debug
  | trace
  deriving DecidableEq

namespace LogLevel

/-- The name of a level. -/
def name : LogLevel → String
  | off => "off"
  | error => "error"
  | warn => "warn"
  | info => "info"
  | debug => "debug"
  | trace => "trace"

/-- All levels, each at the place of its number. -/
def all : List LogLevel := [off, error, warn, info, debug, trace]

/-- The number that decimal digits stand for, with an optional plus sign before them. -/
def number? (text : List Char) : Option Nat :=
  let digits := if text.head? = some '+' then text.tail else text
  if digits ≠ [] ∧ digits.all Char.isDigit then
    some (digits.foldl (fun n c => 10 * n + (c.toNat - 48)) 0)
  else none

/-- A level by its name in letters of either case, or by its number. -/
def ofChars? (text : List Char) : Option LogLevel :=
  let lower := String.ofList (text.map Char.toLower)
  (all.find? (·.name = lower)).orElse fun _ => (number? text).bind (all[·]?)

end LogLevel

/-- The messages of a target, or of all targets, down to a level. -/
structure LogDirective where
  target : Option String
  level : LogLevel
  deriving DecidableEq

namespace LogDirective

/-- A character that a directive may start with. -/
def isInitial (c : Char) : Bool := isAlphanumeric c || c = '-' || c = ':' || c = '_'

/-- Reads a directive.  Blanks may stand before a target, unless a level follows it. -/
def ofChars? (text : List Char) : Option LogDirective :=
  let target := text.takeWhile (· ≠ '=')
  if (trim text).head?.any isInitial ∧ '[' ∉ target then
    match text.drop target.length with
    | [] =>
      match LogLevel.ofChars? text with
      | some level => some ⟨none, level⟩
      | none => some ⟨some (String.ofList target), .trace⟩
    | _ :: level =>
      if target.head?.any isBlank then none
      else if level = [] then some ⟨some (String.ofList target), .trace⟩
      else (LogLevel.ofChars? level).map (⟨some (String.ofList target), ·⟩)
  else none

/-- The directive in a filter. -/
def toText (directive : LogDirective) : String :=
  match directive.target with
  | some target => target ++ "=" ++ directive.level.name
  | none => directive.level.name

/-- One directive is shown before another: a target before none, a longer target before a shorter
one, and of equally long ones the greater. -/
def isBefore (a b : LogDirective) : Bool :=
  match a.target, b.target with
  | some s, some t =>
    t.utf8ByteSize < s.utf8ByteSize || (s.utf8ByteSize = t.utf8ByteSize && t < s)
  | some _, none => true
  | none, _ => false

end LogDirective

/-- Which messages are logged: directives, the more specific ones first. -/
structure LogFilter where
  directives : List LogDirective
  deriving DecidableEq

namespace LogFilter

/-- Puts a directive at its place, instead of one on the same target. -/
def insert (directive : LogDirective) : List LogDirective → List LogDirective
  | [] => [directive]
  | other :: others =>
    if directive.target = other.target then directive :: others
    else if directive.isBefore other then directive :: other :: others
    else other :: insert directive others

/-- The parts of a text between commas. -/
def parts (current : List Char) : List Char → List (List Char)
  | [] => [current.reverse]
  | c :: rest => if c = ',' then current.reverse :: parts [] rest else parts (c :: current) rest

/-- Reads a filter; the empty text is a filter without directives. -/
def ofString? (text : String) : Option LogFilter :=
  (((parts [] text.toList).filter (· ≠ [])).mapM LogDirective.ofChars?).map fun directives =>
    ⟨directives.foldl (fun sorted directive => insert directive sorted) []⟩

/-- The text of a filter. -/
def toText (filter : LogFilter) : String := ",".intercalate (filter.directives.map (·.toText))

/-- The filter that the environment names, if it names a valid one, and else the configured one. -/
def choose? (fromEnvironment : Option String) (configured : String) : Option LogFilter :=
  (fromEnvironment.bind ofString?).orElse fun _ => ofString? configured

end LogFilter

end ExamAdmission

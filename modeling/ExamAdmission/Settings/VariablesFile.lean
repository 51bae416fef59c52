/-
Files that supply environment variables.

A file of variables holds lines `NAME=value`.  It only fills variables that are not set, and the
first line that cannot be read ends it, be it that it is no text; what stood before that line counts.
The file is looked for in a directory and then in those around it.

* A line may go on inside quotation marks over the end of the line, and ends where a `#` follows a
  blank.
* A value may be quoted.  Single quotes take every character as it is; elsewhere a backslash takes
  away the meaning of a quote, a dollar sign, a blank or another backslash, and with `n` stands for
  the end of a line.
* `$NAME` and a name in braces stand for the value of a variable, from the environment or from an
  earlier line.  Behind the dollar sign alone the name goes on as long as letters and digits do, of
  whatever script.
-/
import ExamAdmission.Settings.Variables
import ExamAdmission.Text.Alphanumeric
import ExamAdmission.Text.Blank

namespace ExamAdmission

namespace VariablesFile

/-- A directory, told by the steps to it from the last one on, and the directories around it. -/
def around : List String → List (List String)
  | [] => [[]]
  | step :: outer => (step :: outer) :: around outer

/-- The paths at which a program that runs in a directory looks for the file. -/
def paths (directory : String) : List String :=
  let steps := (directory.splitToList (· = '/')).filter (· ≠ "")
  (around steps.reverse).map fun steps => String.join (steps.reverse.map ("/" ++ ·)) ++ "/.env"

/-- The text of the lines before the first one that is not UTF-8; `line` are the bytes of the first
line so far, the last one first. -/
def textOf (line : List UInt8) : List UInt8 → String
  | [] => (String.fromUTF8? ⟨line.reverse.toArray⟩).getD ""
  | byte :: rest =>
    if byte = 10 then
      match String.fromUTF8? ⟨(byte :: line).reverse.toArray⟩ with
      | some text => text ++ textOf [] rest
      | none => ""
    else textOf (byte :: line) rest

/-- Where a character of a file stands, for the question where its line ends. -/
inductive Nesting
  | plain
  /-- Behind a blank, where a `#` starts a comment. -/
  | blank
  | escape
  | single
  | singleEscape
  | double
  | doubleEscape
  deriving DecidableEq

/-- Behind one more character outside quotation marks. -/
def Nesting.outside (c : Char) : Nesting :=
  if c = '\\' then .escape
  else if c = '"' then .double
  else if c = '\'' then .single
  else .plain

/-- Behind one more character; nothing if a comment starts with it. -/
def Nesting.next (nesting : Nesting) (c : Char) : Option Nesting :=
  match nesting with
  | .plain => if isBlank c && c != '\n' && c != '\r' then some .blank else some (outside c)
  | .blank => if c = '#' then none else some (outside c)
  | .escape => some .plain
  | .single =>
    some (if c = '\\' then .singleEscape else if c = '\'' then .plain else .single)
  | .singleEscape => some .single
  | .double =>
    some (if c = '\\' then .doubleEscape else if c = '"' then .plain else .double)
  | .doubleEscape => some .double

/-- The characters before a comment, and where the last one leaves off if there is no comment. -/
def scan (nesting : Nesting) : List Char → List Char × Option Nesting
  | [] => ([], some nesting)
  | c :: rest =>
    match nesting.next c with
    | none => ([], none)
    | some next =>
      let (before, last) := scan next rest
      (c :: before, last)

/-- The lines of a text, each with its line end. -/
def physicalLines (current : List Char) : List Char → List (List Char)
  | [] => if current = [] then [] else [current.reverse]
  | c :: rest =>
    if c = '\n' then (c :: current).reverse :: physicalLines [] rest
    else physicalLines (c :: current) rest

/-- A line without its line end. -/
def dropLineEnd (line : List Char) : List Char :=
  match line.reverse with
  | '\n' :: '\r' :: rest => rest.reverse
  | '\n' :: rest => rest.reverse
  | _ => line

/-- The lines of a file, joined where quotation marks hold them together; `none` at the end stands
for a line that is never completed. -/
def logicalLines (started : List Char) (nesting : Nesting) :
    List (List Char) → List (Option (List Char))
  | [] => if nesting = .plain then [] else [none]
  | line :: rest =>
    let whole := started ++ line
    if (whole.dropWhile isBlank).head? = some '#' then some [] :: logicalLines [] .plain rest
    else
      match scan nesting line with
      | (before, none) => some (started ++ before) :: logicalLines [] .plain rest
      | (_, some .plain) => some (dropLineEnd whole) :: logicalLines [] .plain rest
      | (_, some open_) => logicalLines whole open_ rest

/-- How far a reference to a variable has been read. -/
inductive Reference
  | none
  /-- Behind a dollar sign; the name so far, the last character first. -/
  | bare (name : List Char)
  /-- Behind a dollar sign and a brace. -/
  | braced (name : List Char)

/-- Where a character of a value stands. -/
structure ValueState where
  /-- The value so far, the last character first. -/
  output : List Char := []
  single : Bool := false
  double : Bool := false
  escaped : Bool := false
  /-- Behind an unquoted blank, where only blanks and a comment may follow. -/
  ended : Bool := false
  reference : Reference := .none

namespace ValueState

/-- Takes a character as it is. -/
def push (s : ValueState) (c : Char) : ValueState := { s with output := c :: s.output }

/-- Takes the value of a variable, whose name is given backwards. -/
def substitute (valueOf : String → String) (s : ValueState) (name : List Char) : ValueState :=
  { s with
    output := (valueOf (String.ofList name.reverse)).toList.reverse ++ s.output
    reference := .none }

/-- A character that an escape may name. -/
def escapable (c : Char) : Bool := c = '\\' || c = '\'' || c = '"' || c = '$' || c = ' '

/-- Takes one more character that belongs to no reference and no escape. -/
def stepPlain (s : ValueState) (c : Char) : ValueState :=
  if s.single then if c = '\'' then { s with single := false } else s.push c
  else if c = '$' then { s with reference := .bare [] }
  else if c = '\\' then { s with escaped := true }
  else if s.double then if c = '"' then { s with double := false } else s.push c
  else if c = '\'' then { s with single := true }
  else if c = '"' then { s with double := true }
  else if c = ' ' ∨ c = '\t' then { s with ended := true }
  else s.push c

/-- Takes one more character; nothing if it may not stand here. -/
def step (valueOf : String → String) (s : ValueState) (c : Char) : Option ValueState :=
  if s.ended then if c = ' ' ∨ c = '\t' then some s else none
  else if s.escaped then
    if escapable c then some ({ s with escaped := false }.push c)
    else if c = 'n' then some ({ s with escaped := false }.push '\n')
    else none
  else
    match s.reference with
    | .none => some (s.stepPlain c)
    | .bare name =>
      if isAlphanumeric c then some { s with reference := .bare (c :: name) }
      else if c = '\x7b' ∧ name = [] then some { s with reference := .braced [] }
      else if c = '$' then some { s.substitute valueOf name with reference := .bare [] }
      else some ((s.substitute valueOf name).push c)
    | .braced name =>
      if c = '\x7d' then some (s.substitute valueOf name)
      else some { s with reference := .braced (c :: name) }

/-- The value, if no quotation mark and no brace is left open. -/
def finish (valueOf : String → String) (s : ValueState) : Option String :=
  if s.single || s.double then none
  else
    match s.reference with
    | .none => some (String.ofList s.output.reverse)
    | .bare name => some (String.ofList (s.substitute valueOf name).output.reverse)
    | .braced _ => none

/-- Reads a value; a comment behind a blank ends it. -/
def run (valueOf : String → String) (s : ValueState) : List Char → Option String
  | [] => s.finish valueOf
  | c :: rest =>
    if s.ended && c = '#' then s.finish valueOf
    else
      match s.step valueOf c with
      | none => none
      | some s => s.run valueOf rest

end ValueState

/-- A character of a name at the start of a line. -/
def isKeyChar (c : Char) : Bool := c.isAlphanum || c = '_' || c = '.'

/-- The name at the start of a line, and what follows it. -/
def key? (line : List Char) : Option (String × List Char) :=
  match line with
  | [] => none
  | c :: _ =>
    if c.isAlpha || c = '_' then
      some (String.ofList (line.takeWhile isKeyChar),
        (line.dropWhile isKeyChar).dropWhile isBlank)
    else none

/-- What follows an equals sign. -/
def afterEquals? : List Char → Option (List Char)
  | '=' :: rest => some (rest.dropWhile isBlank)
  | _ => none

/-- What one line says. -/
inductive Line
  | nothing
  | assignment (name value : String)
  /-- The line cannot be read. -/
  | broken

/-- The name of a line and the text of its value; `export` may stand before the name. -/
def assignment? (line : List Char) : Option (String × List Char) := do
  let (name, rest) ← key? line
  match afterEquals? rest with
  | some value => some (name, value)
  | none =>
    if name = "export" then
      let (name, rest) ← key? rest
      let value ← afterEquals? rest
      some (name, value)
    else none

/-- Reads a line. -/
def readLine (valueOf : String → String) (line : List Char) : Line :=
  let line := (trimEnd line).dropWhile isBlank
  if line = [] ∨ line.head? = some '#' then .nothing
  else
    match assignment? line with
    | none => .broken
    | some (name, value) =>
      if value.head? = some '#' then .assignment name ""
      else
        match ({} : ValueState).run valueOf value with
        | some value => .assignment name value
        | none => .broken

/-- Takes over the lines of a file up to the first broken one; `earlier` are its assignments so
far. -/
def fill (environment earlier : Variables) : List (Option (List Char)) → Variables
  | [] | none :: _ => environment
  | some line :: rest =>
    let valueOf := fun name =>
      ((environment.value? name).orElse fun _ => earlier.lookup name).getD ""
    match readLine valueOf line with
    | .nothing => fill environment earlier rest
    | .broken => environment
    | .assignment name value =>
      let environment :=
        match environment.lookup name with
        | some _ => environment
        | none => (name, value) :: environment
      fill environment ((name, value) :: earlier) rest

/-- The pieces of a file among which is every name that it may refer to: at the start of a line,
behind a dollar sign, or in braces. -/
def pieces (file : String) : List String :=
  [isKeyChar, isAlphanumeric, fun c => c != '\x7b' && c != '\x7d'].flatMap fun belongs =>
    (file.splitToList fun c => !belongs c).filter (· ≠ "")

/-- The environment with the variables of a file filled in. -/
def load (environment : Variables) (file : String) : Variables :=
  let text := file.toList
  -- A byte order mark at the start is no part of the first line.
  let text := if text.head? = some '\ufeff' then text.tail else text
  fill environment [] (logicalLines [] .plain (physicalLines [] text))

end VariablesFile

/-- The variables of an environment, with the missing ones from a file. -/
def Variables.withFile (environment : Variables) (file : Option String) : Variables :=
  match file with
  | some text => VariablesFile.load environment text
  | none => environment

end ExamAdmission

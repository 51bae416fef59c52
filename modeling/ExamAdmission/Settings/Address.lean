/-
Internet addresses: their texts, read and written.

* An address of version 4 is four numbers below 256, written without leading zeros.
* An address of version 6 is eight groups of up to four hexadecimal digits.  A double colon stands
  for at least one group of zeros, and the last two groups may be written as an address of version
  4.  In writing, the first of the longest runs of at least two zero groups becomes a double colon,
  and an address that stands for one of version 4 shows it.
-/

namespace ExamAdmission

/-- An internet address. -/
inductive Address
  | v4 (octets : List UInt8)
  | v6 (groups : List UInt16)
  deriving DecidableEq

namespace Address

/-- The number that a digit stands for in a base up to 16. -/
def digit? (base : Nat) (c : Char) : Option Nat :=
  let value :=
    if c.isDigit then some (c.toNat - 48)
    else if 'a' ≤ c ∧ c ≤ 'f' then some (c.toNat - 87)
    else if 'A' ≤ c ∧ c ≤ 'F' then some (c.toNat - 55)
    else none
  value.filter (· < base)

/-- Reads a number of up to `most` digits and below `bound` off the start of a text. -/
def number? (base most bound : Nat) (leadingZeros : Bool) (text : List Char) :
    Option (Nat × List Char) :=
  let digits := text.takeWhile fun c => (digit? base c).isSome
  let value := digits.foldl (fun n c => base * n + (digit? base c).getD 0) 0
  if digits = [] ∨ most < digits.length ∨ bound ≤ value then none
  else if leadingZeros = false ∧ digits.head? = some '0' ∧ 1 < digits.length then none
  else some (value, text.drop digits.length)

/-- Reads a character off the start of a text. -/
def char? (c : Char) : List Char → Option (List Char)
  | [] => none
  | first :: rest => if first = c then some rest else none

/-- Reads a number below 256 off the start of a text. -/
def octet? (text : List Char) : Option (UInt8 × List Char) :=
  (number? 10 3 256 false text).map fun (n, rest) => (n.toUInt8, rest)

/-- Reads an address of version 4 off the start of a text. -/
def octets? (text : List Char) : Option (List UInt8 × List Char) := do
  let (a, rest) ← octet? text
  let (b, rest) ← octet? (← char? '.' rest)
  let (c, rest) ← octet? (← char? '.' rest)
  let (d, rest) ← octet? (← char? '.' rest)
  some ([a, b, c, d], rest)

/-- Two groups from four octets. -/
def groupsOfOctets : List UInt8 → List UInt16
  | a :: b :: rest => (a.toUInt16 * 256 + b.toUInt16) :: groupsOfOctets rest
  | _ => []

/-- Reads up to `limit` groups with colons between them off the start of a text; they may end in an
address of version 4, which the second result tells.  `first` says that no colon stands before the
next group. -/
def groups (first : Bool) : Nat → List Char → List UInt16 × Bool × List Char
  | 0, text => ([], false, text)
  | limit + 1, text =>
    let start := if first then some text else char? ':' text
    match (if limit = 0 then none else start.bind octets?) with
    | some (octets, rest) => (groupsOfOctets octets, true, rest)
    | none =>
      match start.bind (number? 16 4 65536 true) with
      | none => ([], false, text)
      | some (group, rest) =>
        let (others, embedded, rest) := groups false limit rest
        (group.toUInt16 :: others, embedded, rest)

/-- Reads an address of version 6 off the start of a text. -/
def allGroups? (text : List Char) : Option (List UInt16 × List Char) := do
  let (head, embedded, rest) := groups true 8 text
  if head.length = 8 then some (head, rest)
  else if embedded then none
  else
    let rest ← char? ':' (← char? ':' rest)
    let (tail, _, rest) := groups true (7 - head.length) rest
    some (head ++ List.replicate (8 - head.length - tail.length) 0 ++ tail, rest)

/-- Reads an address. -/
def ofString? (text : String) : Option Address :=
  match octets? text.toList with
  | some (octets, rest) => if rest = [] then some (v4 octets) else none
  | none =>
    match allGroups? text.toList with
    | some (groups, []) => some (v6 groups)
    | _ => none

/-- Octets with dots between them. -/
def octetsText (octets : List UInt8) : String :=
  ".".intercalate (octets.map fun octet => toString octet.toNat)

/-- A group in lower-case hexadecimal digits. -/
def groupText (group : UInt16) : String := String.ofList (Nat.toDigits 16 group.toNat)

/-- Groups with colons between them. -/
def groupsText (groups : List UInt16) : String := ":".intercalate (groups.map groupText)

/-- The length of the run of zeros at the start. -/
def zeroRun (groups : List UInt16) : Nat := (groups.takeWhile (· = 0)).length

/-- The start and the length of the first of the longest runs of zeros; `index` groups have been
passed. -/
def longestRun (index : Nat) : List UInt16 → Nat × Nat
  | [] => (index, 0)
  | group :: rest =>
    let here := zeroRun (group :: rest)
    let (start, length) := longestRun (index + 1) rest
    if length ≤ here then (index, here) else (start, length)

/-- An address of version 6. -/
def v6Text (groups : List UInt16) : String :=
  match groups with
  | [0, 0, 0, 0, 0, 0xFFFF, high, low] =>
    "::ffff:" ++ octetsText
      [(high / 256).toUInt8, (high % 256).toUInt8, (low / 256).toUInt8, (low % 256).toUInt8]
  | _ =>
    let (start, length) := longestRun 0 groups
    if 1 < length then
      groupsText (groups.take start) ++ "::" ++ groupsText (groups.drop (start + length))
    else groupsText groups

/-- An address with a port. -/
def withPort (address : Address) (port : UInt16) : String :=
  match address with
  | v4 octets => octetsText octets ++ ":" ++ toString port.toNat
  | v6 groups => "[" ++ v6Text groups ++ "]:" ++ toString port.toNat

end Address

end ExamAdmission

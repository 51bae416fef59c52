/-
Numbers in JSON texts, read one byte at a time.

A number without point and exponent and within 64 bits is an integer, apart from a negative zero.
Any other one is a double, which is read at a fixed cost: of its digits only those count that fit
into 64 bits together, the first nineteen or twenty, and the double nearest to them is multiplied
or divided by a power of ten.  Every step rounds, so the result may differ in its last place from
the double nearest to what was written; where the digits and the power are doubles themselves, it
is that double.

* `Numeral`: a number as far as it has been read.
* `Numeral.Reading`: how digits are made a double; `Numeral.scaled` is the way described above.
* `Numeral.step`: takes the next character, or says that the number has ended before it.
* `Numeral.value`: the number that was written.
-/
import ExamAdmission.Json.Document

namespace ExamAdmission

/-- The part of a number that was read last. -/
inductive NumeralPart
  | sign
  /-- A leading zero, which no digit may follow. -/
  | zero
  | whole
  | point
  | fraction
  | mark
  | markSign
  | exponent
  deriving DecidableEq

/-- A number as far as it has been read. -/
structure Numeral where
  part : NumeralPart
  negative : Bool
  /-- The digits that count, as one number of 64 bits. -/
  significand : Nat
  /-- A digit did not fit, so that none behind it counts, up to the point or the exponent. -/
  full : Bool
  /-- The weight of the last digit that counts, without the exponent. -/
  scale : Int
  negativeExponent : Bool
  exponent : Nat
  deriving DecidableEq

/-- What reading one more character does to an unfinished token. -/
inductive TokenStep (σ τ : Type)
  /-- The token goes on. -/
  | more (state : σ)
  /-- The token is complete. -/
  | done (token : τ)
  /-- The text breaks off, for a reader who wants the token and for one who passes over it. -/
  | fault (strict lenient : Fault)

namespace Numeral

/-- The digit that a character stands for. -/
def digitOf (c : Char) : Nat := c.toNat - 48

/-- A number that starts with this character. -/
def start? (c : Char) : Option Numeral :=
  if c = '-' then some ⟨.sign, true, 0, false, 0, false, 0⟩
  else if c = '0' then some ⟨.zero, false, 0, false, 0, false, 0⟩
  else if c.isDigit then some ⟨.whole, false, digitOf c, false, 0, false, 0⟩
  else none

/-- How digits are made a double: what is read for `significand · 10 ^ exponent`. -/
abbrev Reading := Nat → Int → Double

/-- The double nearest to `10 ^ n`. -/
def powerOfTen (n : Nat) : Double := .ofNat (Nat.pow 10 n)

/-- The double nearest to the digits, scaled by the double nearest to the power of ten.  Powers of ten
are doubles up to `10 ^ 308`; a number above their range is infinite, and one below it is divided
twice or is zero. -/
def scaled : Reading := fun significand exponent =>
  if significand = 0 ∨ exponent < -616 then .zero false
  else if 308 < exponent then .infinity false
  else if 0 ≤ exponent then .ofNat significand * powerOfTen exponent.toNat
  else if -308 ≤ exponent then .ofNat significand / powerOfTen (-exponent).toNat
  else .ofNat significand / powerOfTen 308 / powerOfTen (-exponent - 308).toNat

section Read

variable (reading : Reading)

/-- The double that was written. -/
def toDouble (n : Numeral) : Double :=
  let exponent := n.scale + (if n.negativeExponent then -(n.exponent : Int) else n.exponent)
  if n.negative then -reading n.significand exponent else reading n.significand exponent

/-- The number that was written. -/
def value (n : Numeral) : Number :=
  let double :=
    if (n.toDouble reading).isInfinite then Number.tooLarge else .float (n.toDouble reading)
  if (n.part = .zero ∨ n.part = .whole) ∧ !n.full then
    if !n.negative then .integer n.significand
    else if 0 < n.significand ∧ n.significand ≤ 9223372036854775808 then
      .integer (-(n.significand : Int))
    else double
  else double

end Read

/-- One more digit that counts still fits into 64 bits. -/
def hasRoomFor (n : Numeral) (c : Char) : Bool :=
  !n.full && 10 * n.significand + digitOf c < 18446744073709551616

/-- Takes a digit before the point. -/
def pushWhole (n : Numeral) (c : Char) : Numeral :=
  if n.hasRoomFor c then { n with significand := 10 * n.significand + digitOf c }
  else { n with full := true, scale := n.scale + 1 }

/-- Takes a digit behind the point. -/
def pushFraction (n : Numeral) (c : Char) : Numeral :=
  if n.hasRoomFor c then
    { n with significand := 10 * n.significand + digitOf c, scale := n.scale - 1 }
  else { n with full := true }

section Read

variable (reading : Reading)

/-- The number ends here, or a point or an exponent follows its whole part. -/
def afterWhole (n : Numeral) (c : Char) : TokenStep Numeral Number :=
  if c = '.' then .more { n with part := .point, full := false }
  else if c = 'e' ∨ c = 'E' then .more { n with part := .mark }
  else .done (n.value reading)

/-- A digit that a part of the number has to start with. -/
def needDigit (c : Char) (next : Numeral) : TokenStep Numeral Number :=
  if c.isDigit then .more next else .fault .invalidNumber .invalidNumber

/-- Takes the next character; `done` leaves it to whatever follows the number. -/
def step (n : Numeral) (c : Char) : TokenStep Numeral Number :=
  match n.part with
  | .sign =>
    if c = '0' then .more { n with part := .zero }
    else needDigit c { n.pushWhole c with part := .whole }
  | .zero => if c.isDigit then .fault .invalidNumber .invalidNumber else n.afterWhole reading c
  | .whole => if c.isDigit then .more (n.pushWhole c) else n.afterWhole reading c
  | .point => needDigit c { n.pushFraction c with part := .fraction }
  | .fraction =>
    if c.isDigit then .more (n.pushFraction c)
    else if c = 'e' ∨ c = 'E' then .more { n with part := .mark }
    else .done (n.value reading)
  | .mark =>
    if c = '+' then .more { n with part := .markSign }
    else if c = '-' then .more { n with part := .markSign, negativeExponent := true }
    else needDigit c { n with part := .exponent, exponent := digitOf c }
  | .markSign => needDigit c { n with part := .exponent, exponent := digitOf c }
  | .exponent =>
    if c.isDigit then .more { n with exponent := 10 * n.exponent + digitOf c }
    else .done (n.value reading)

/-- The text ends here.  A number that lacks a digit is unfinished to a reader who wants it, and
no number to one who passes over it. -/
def finish (n : Numeral) : TokenStep Numeral Number :=
  match n.part with
  | .zero | .whole | .fraction | .exponent => .done (n.value reading)
  | _ => .fault .endInValue .invalidNumber

end Read

end Numeral

end ExamAdmission

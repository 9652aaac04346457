import LedgerValue.HostNumber.Rounding
import LedgerValue.Json.Basic
import LedgerValue.Text.Digits

/-!
# JSON numerals

The parts of a number as it is written, and what it stands for: an integer if it has neither point
nor exponent, is not a negative zero and fits a 64-bit word, and some other decimal otherwise. A
decimal is refused when its approximation leaves the range of host numbers.
-/

namespace LedgerValue.Json

/-- A number as it is written. -/
structure Numeral where
  /-- A minus sign stands in front. -/
  negative : Bool
  /-- The digits before the point. -/
  whole : List Char
  /-- The digits after the point, none without a point. -/
  fraction : List Char
  /-- The sign and the digits of the exponent. -/
  exponent : Option (Bool × List Char)
  /-- The whole spelling. -/
  spelling : List Char
deriving DecidableEq, Repr

namespace Numeral

/-- Appends digits to a significand as long as it fits a word of 64 bits, and returns the digits
that are left. -/
def extend (significand : Nat) : List Char → Nat × List Char
  | [] => (significand, [])
  | c :: rest =>
    let longer := 10 * significand + (c.toNat - 48)
    if Word.IsUnsigned longer then extend longer rest else (significand, c :: rest)

/-- The significand, and the power of ten it is multiplied by before the written exponent. -/
def significand (numeral : Numeral) : Nat × Int :=
  let (whole, dropped) := extend 0 numeral.whole
  let (significand, ignored) := extend whole numeral.fraction
  (significand, (dropped.length : Int) - ((numeral.fraction.length - ignored.length : Nat) : Int))

/-- The approximation of `significand * 10 ^ exponent` leaves the range of host numbers. -/
def leavesRange (significand : Nat) (exponent : Int) : Bool :=
  if significand = 0 || exponent < 0 then false
  else if 308 < exponent then true
  else
    match (HostNumber.ofNumber (significand : Int)).toNumber,
      (HostNumber.ofNumber (Nat.pow 10 exponent.toNat : Int)).toNumber with
    | .ok s, .ok power => !(HostNumber.ofNumber (s * power)).isFinite
    | _, _ => true

/-- The numeral is a decimal outside the range of host numbers. -/
def overflows (numeral : Numeral) : Bool :=
  let (significand, shift) := numeral.significand
  match numeral.exponent with
  | none => leavesRange significand shift
  | some (negative, ds) =>
    let size := Text.readDigits ds
    if 0x80000000 ≤ size then !negative && significand != 0
    else leavesRange significand (if negative then shift - size else shift + size)

/-- The integer that a numeral stands for. -/
def integer? (numeral : Numeral) : Option Int :=
  if numeral.fraction.isEmpty && numeral.exponent.isNone then
    let size := Text.readDigits numeral.whole
    if numeral.negative then
      if size = 0 then none else Word.signed? (-(size : Int))
    else if Word.IsUnsigned size then some size else none
  else none

/-- The JSON number that a numeral stands for. -/
def toJson? (numeral : Numeral) : Option Json :=
  match numeral.integer? with
  | some value => some (.integer value)
  | none => if numeral.overflows then none else some (.decimal (String.ofList numeral.spelling))

end Numeral

end LedgerValue.Json

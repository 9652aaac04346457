import LedgerValue.Text.Digits
import LedgerValue.Word

/-!
# Exact numbers

Numbers are rationals in lowest terms, so that equality and order are by value. This module holds
their construction, the views of a whole number as a machine word or a position, and the ways in
which making a number can fail.
-/

namespace LedgerValue

/-- An exact number: a rational in lowest terms with a positive denominator. -/
abbrev Number := Rat

/-- Why a number could not be made. -/
inductive NumberError where
  /-- The text is no decimal literal, or its scale is out of bounds. -/
  | invalidSyntax
  /-- A denominator or divisor is zero. -/
  | divisionByZero
  /-- A binary number is infinite. -/
  | infinity
  /-- A binary number is not a number. -/
  | notANumber
deriving DecidableEq, Repr

/-- The sentence that reports the error. -/
def NumberError.message : NumberError → String
  | invalidSyntax => "invalid number syntax"
  | divisionByZero => "division by zero"
  | infinity => "infinity is not allowed"
  | notANumber => "NaN is not allowed"

namespace Number

/-- The quotient of two integers in lowest terms. -/
def ofFraction (numerator denominator : Int) : Except NumberError Number :=
  if denominator = 0 then .error .divisionByZero
  else .ok (Rat.divInt numerator denominator)

/-- The number times a power of ten. -/
def scaled (coefficient : Int) (exponent : Int) : Number :=
  if 0 ≤ exponent then mkRat (coefficient * Nat.pow 10 exponent.toNat) 1
  else mkRat coefficient (Nat.pow 10 exponent.natAbs)

/-- The number is whole. -/
def isWhole (n : Number) : Bool := n.den == 1

/-- The number as a signed 64-bit word, if it is one. -/
def toWord? (n : Number) : Option Int :=
  if n.den = 1 then Word.signed? n.num else none

/-- The number as a position in a sequence, that is an unsigned 64-bit word, if it is one. -/
def toPosition? (n : Number) : Option Nat :=
  if n.den = 1 then Word.unsigned? n.num else none

/-- The exact quotient, refused for a divisor of zero. -/
def divide (dividend divisor : Number) : Except NumberError Number :=
  if divisor = 0 then .error .divisionByZero else .ok (dividend / divisor)

/-- The order of two numbers by value. -/
def order (a b : Number) : Ordering :=
  if a < b then .lt else if a = b then .eq else .gt

/-- The numbers in increasing order. -/
def sort (numbers : List Number) : List Number := numbers.mergeSort fun a b => a ≤ b

/-- How many different numbers there are. -/
def countDistinct (numbers : List Number) : Nat := numbers.eraseDups.length

/-- The numerator and the denominator, parted by a slash. -/
def ratioChars (n : Number) : List Char :=
  Text.signedDigits n.num ++ '/' :: Text.digits n.den

/-- The numerator and the denominator as a string. -/
def ratioText (n : Number) : String := String.ofList n.ratioChars

end Number

end LedgerValue

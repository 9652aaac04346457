import LedgerValue.Number.Basic
import LedgerValue.Text.Quoted
import LedgerValue.Text.Split

/-!
# Decimal literals

A literal is an optional minus sign, decimal digits with at most one point among or around them,
and optionally the letter e or E with an exponent, itself optionally negative. It denotes the
integer of all its digits times a power of ten, the scale, whose magnitude is bounded.
-/

namespace LedgerValue

/-- The parts of a decimal literal. -/
structure Literal where
  /-- A minus sign stands in front. -/
  negative : Bool
  /-- The digits before the point. -/
  whole : List Char
  /-- The digits after the point. -/
  fraction : List Char
  /-- The exponent as written, zero when there is none. -/
  exponent : Int
deriving DecidableEq, Repr

namespace Literal

/-- The character may stand in a literal: a digit, the sign, the point or the letter e. -/
def isConstituent (c : Char) : Bool := c.isDigit || ['-', '.', 'e', 'E'].contains c

/-- The largest magnitude of a scale. -/
def maxScale : Nat := 1000000

/-- The text of digits, unless it holds something else. -/
def digits? (text : List Char) : Option (List Char) :=
  if Text.allDigits text then some text else none

/-- Reads an exponent: digits, at least one, that fit a word, after an optional minus sign. -/
def readExponent? (text : List Char) : Option Int :=
  let (negative, rest) := Text.takeMinus text
  if rest.isEmpty then none
  else (digits? rest).bind fun ds =>
    (Word.signed? (Text.readDigits ds)).map fun magnitude =>
      if negative then -magnitude else magnitude

/-- The character opens an exponent. -/
def isExponentMark (c : Char) : Bool := c == 'e' || c == 'E'

/-- Reads the parts of a literal. -/
def read? (text : List Char) : Option Literal :=
  let (negative, unsigned) := Text.takeMinus text
  let (mantissa, exponentText) := Text.cut isExponentMark unsigned
  let (wholeText, fractionText) := Text.cut (· == '.') mantissa
  if wholeText.isEmpty && (fractionText.getD []).isEmpty then none
  else
    (digits? wholeText).bind fun whole =>
    (digits? (fractionText.getD [])).bind fun fraction =>
    (exponentText.elim (some 0) readExponent?).map fun exponent =>
      { negative, whole, fraction, exponent }

/-- The power of ten that the digits are multiplied by: the exponent less the places after the
point, if it stays within the bound. It is computed in words. -/
def scale? (literal : Literal) : Option Int :=
  (Word.signed? literal.fraction.length).bind fun places =>
  (Word.signed? (literal.exponent - places)).bind fun scale =>
    if scale.natAbs ≤ maxScale then some scale else none

/-- The integer of all digits, negated after a minus sign. -/
def coefficient (literal : Literal) : Int :=
  let magnitude : Int := Text.readDigits (literal.whole ++ literal.fraction)
  if literal.negative then -magnitude else magnitude

/-- The number a literal denotes, if its scale is within the bound. -/
def value? (literal : Literal) : Option Number :=
  literal.scale?.map fun scale => Number.scaled literal.coefficient scale

end Literal

namespace Number

/-- Reads a text as a decimal literal. A text with a character that stands in no literal is refused
before it is split. -/
def parseChars (text : List Char) : Except NumberError Number :=
  if text.all Literal.isConstituent then
    match (Literal.read? text).bind Literal.value? with
    | some n => .ok n
    | none => .error .invalidSyntax
  else .error .invalidSyntax

/-- Reads a string as a decimal literal. -/
def parse (text : String) : Except NumberError Number := parseChars text.toList

/-- A literal that had to be right was not. -/
structure BadLiteral where
  /-- The refused text. -/
  text : String
  /-- Why it was refused. -/
  cause : NumberError
deriving DecidableEq, Repr

/-- The report of a refused literal. -/
def BadLiteral.message (bad : BadLiteral) : String :=
  "Number::must_parse(" ++ Text.quoted bad.text ++ "): " ++ bad.cause.message

/-- Reads a literal that has to be right. -/
def parseTrusted (text : String) : Except BadLiteral Number :=
  (parse text).mapError fun cause => { text, cause }

end Number

end LedgerValue

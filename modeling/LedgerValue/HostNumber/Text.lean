import LedgerValue.HostNumber.Shortest
import LedgerValue.Text.Split

/-!
# Text of host numbers

Two spellings of the shortest decimal: the plain one is always positional, and the marked one has
at least one decimal place and gives very large and very small numbers with an exponent. The
reader takes decimal and exponent notation and rounds to nearest.
-/

namespace LedgerValue.HostNumber

/-- The digits set in place: zeros fill the gap between them and the point. -/
def positional (ds : List Char) (exponent : Int) : List Char :=
  if 0 ≤ exponent then ds ++ List.replicate exponent.toNat '0'
  else
    let padded := Text.zeroPadded (exponent.natAbs + 1) ds
    padded.take (padded.length - exponent.natAbs)
      ++ '.' :: padded.drop (padded.length - exponent.natAbs)

/-- The first digit, the others after a point, and the exponent of the first digit. -/
def scientific (ds : List Char) (exponent : Int) : List Char :=
  let leading := exponent + ds.length - 1
  ds.take 1 ++ (if ds.length ≤ 1 then [] else '.' :: ds.drop 1)
    ++ 'e' :: Text.signedDigits leading

/-- The plain spelling of a magnitude. -/
def plainMagnitude (rank : Nat) : List Char :=
  if rank = 0 then ['0']
  else
    let decimal := shortest rank
    positional (Text.digits decimal.coefficient) decimal.exponent

/-- The least power of ten of a first digit that is spelled positionally. -/
def leastPositional : Int := -4

/-- The greatest power of ten of a first digit that is spelled positionally. -/
def greatestPositional : Int := 15

/-- The marked spelling of a magnitude. -/
def markedMagnitude (rank : Nat) : List Char :=
  if rank = 0 then ['0', '.', '0']
  else
    let decimal := shortest rank
    let ds := Text.digits decimal.coefficient
    let leading := decimal.exponent + ds.length - 1
    if leading < leastPositional || greatestPositional < leading then
      scientific ds decimal.exponent
    else if 0 ≤ decimal.exponent then positional ds decimal.exponent ++ ['.', '0']
    else positional ds decimal.exponent

/-- A number spelled with a given spelling of magnitudes. -/
def spelled (magnitude : Nat → List Char) : HostNumber → List Char
  | nan => ['N', 'a', 'N']
  | infinity negative => (if negative then ['-'] else []) ++ ['i', 'n', 'f']
  | finite negative rank => (if negative then ['-'] else []) ++ magnitude rank

/-- The plain spelling. -/
def plain (x : HostNumber) : List Char := spelled plainMagnitude x

/-- The marked spelling. -/
def marked (x : HostNumber) : List Char := spelled markedMagnitude x

/-- Takes a sign of either kind off the front. -/
def takeSign : List Char → Bool × List Char
  | '-' :: rest => (true, rest)
  | '+' :: rest => (false, rest)
  | text => (false, text)

/-- A written exponent is followed only until it reaches this size. -/
def exponentCeiling : Nat := 0x10000

/-- The exponent that digits spell, no longer followed once it has reached the ceiling. -/
def followExponent (ds : List Char) : Nat :=
  ds.foldl (fun n c => if n < exponentCeiling then 10 * n + (c.toNat - 48) else n) 0

/-- Reads an exponent: digits, at least one, after an optional sign. -/
def readExponent? (text : List Char) : Option Int :=
  let (negative, ds) := takeSign text
  if ds.isEmpty || !Text.allDigits ds then none
  else some (if negative then -(followExponent ds : Int) else followExponent ds)

/-- The host number nearest to an integer of digits times a power of ten. Powers far outside the
range of host numbers are answered without computing them. -/
def ofDecimal (negative : Bool) (ds : List Char) (exponent : Int) : HostNumber :=
  let significant := ds.dropWhile (· == '0')
  let leading := exponent + significant.length
  if significant.isEmpty || leading < -400 then ofRank negative 0
  else if 400 < leading then infinity negative
  else
    let (n, d) := Decimal.steps (Text.readDigits significant * unitsPerOne) 1 (-exponent)
    ofRank negative (nearestRank n d)

/-- Reads a number in decimal or exponent notation. -/
def read? (text : List Char) : Option HostNumber :=
  let (negative, unsigned) := takeSign text
  let (mantissa, exponentText) := Text.cut (fun c => c == 'e' || c == 'E') unsigned
  let (whole, fractionText) := Text.cut (· == '.') mantissa
  let fraction := fractionText.getD []
  if (whole.isEmpty && fraction.isEmpty) || !Text.allDigits whole || !Text.allDigits fraction then
    none
  else
    (exponentText.elim (some 0) readExponent?).map fun exponent =>
      ofDecimal negative (whole ++ fraction) (exponent - fraction.length)

end LedgerValue.HostNumber

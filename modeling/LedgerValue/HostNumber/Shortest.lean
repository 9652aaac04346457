import LedgerValue.HostNumber.Rounding
import LedgerValue.Text.Digits

/-!
# Shortest decimals

Among the decimals that round to a given host number, those with the fewest digits are sought, and
of these the nearest; an exact tie goes to the larger. For each count of digits the candidates are
the two neighbours of the exact value on the grid of decimals with that many digits.
-/

namespace LedgerValue.HostNumber

/-- A positive decimal: an integer times a power of ten. -/
structure Decimal where
  /-- The integer of the significant digits. -/
  coefficient : Nat
  /-- The power of ten. -/
  exponent : Int
deriving DecidableEq, Repr

namespace Decimal

/-- The numerator and denominator of a magnitude `n / d` counted in steps of a power of ten. -/
def steps (n d : Nat) (exponent : Int) : Nat × Nat :=
  if 0 ≤ exponent then (n, d * Nat.pow 10 exponent.toNat)
  else (n * Nat.pow 10 exponent.natAbs, d)

/-- The rank that a decimal rounds to. -/
def rank (decimal : Decimal) : Nat :=
  let (n, d) := steps (decimal.coefficient * unitsPerOne) 1 (-decimal.exponent)
  nearestRank n d

/-- Moves the zeros at the end of the coefficient into the exponent. -/
def trim (decimal : Decimal) : Decimal :=
  let zeros := ((Text.digits decimal.coefficient).reverse.takeWhile (· == '0')).length
  ⟨decimal.coefficient / Nat.pow 10 zeros, decimal.exponent + zeros⟩

end Decimal

/-- The power of ten of the first digit of a positive magnitude. Every magnitude is more than
`10 ^ (-400)`, so that the scaled quotient has a digit. -/
def leadingExponent (rank : Nat) : Int :=
  (Text.digits (units rank * Nat.pow 10 400 / unitsPerOne)).length - 401

/-- The neighbour on the grid of multiples of `10 ^ exponent` that rounds back to the rank, if one
does: the nearer of two, and the larger in a tie. -/
def neighbour? (rank : Nat) (exponent : Int) : Option Decimal :=
  let (n, d) := Decimal.steps (units rank) unitsPerOne exponent
  let below : Decimal := ⟨n / d, exponent⟩
  let above : Decimal := ⟨n / d + 1, exponent⟩
  if below.rank == rank && !(above.rank == rank && d ≤ 2 * (n % d)) then some below
  else if above.rank == rank then some above
  else none

/-- The most digits that are ever needed to tell host numbers apart. -/
def maxDigits : Nat := 17

/-- The shortest decimal of a positive magnitude. -/
def shortest (rank : Nat) : Decimal :=
  let leading := leadingExponent rank
  let found := (List.range maxDigits).findSome? fun (further : Nat) =>
    neighbour? rank (leading - (further : Int))
  (found.getD ⟨units rank * Nat.pow 10 1074 / unitsPerOne, -1074⟩).trim

end LedgerValue.HostNumber

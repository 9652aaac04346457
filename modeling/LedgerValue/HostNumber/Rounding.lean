import LedgerValue.HostNumber.Basic

/-!
# Rounding to host numbers

The host number nearest to an exact number, a tie going to the even rank. Beyond the largest
finite magnitude lies infinity, and what is nearest to nothing keeps its sign.
-/

namespace LedgerValue.HostNumber

/-- The quotient of two naturals rounded to nearest, a half going to the even neighbour. -/
def divideHalfEven (n d : Nat) : Nat :=
  let quotient := n / d
  let twice := 2 * (n % d)
  if d < twice || (twice == d && quotient % 2 == 1) then quotient + 1 else quotient

/-- The rank nearest to `n / d` units. It passes `rankCount` for magnitudes that are too large. -/
def nearestRank (n d : Nat) : Nat :=
  let spacing := (n / d).log2 - 52
  spacing * 0x10000000000000 + divideHalfEven n (d * Nat.pow 2 spacing)

/-- The host number of a sign and the rank of a magnitude, infinite past the last finite rank. -/
def ofRank (negative : Bool) (rank : Nat) : HostNumber :=
  if h : rank < rankCount then finite negative ⟨rank, h⟩ else infinity negative

/-- The nearest host number; zero itself is positive. -/
def ofNumber (n : Number) : HostNumber :=
  ofRank (n < 0) (nearestRank (n.num.natAbs * unitsPerOne) n.den)

/-- The nearest host number, unless it is none. -/
def ofNumber? (n : Number) : Option HostNumber :=
  let x := ofNumber n
  if x = nan then none else some x

@[simp]
theorem ofNumber_ne_nan (n : Number) : ofNumber n ≠ nan := by
  rw [ofNumber, ofRank]
  split <;> simp

/-- Every exact number has a nearest host number, an infinite one if it has to be. -/
@[simp]
theorem ofNumber?_eq_some (n : Number) : ofNumber? n = some (ofNumber n) := by
  simp [ofNumber?]

end LedgerValue.HostNumber

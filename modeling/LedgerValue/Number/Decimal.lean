import LedgerValue.Number.Basic

/-!
# Decimal rendering

A number is rendered with a fixed number of decimal places. The last place is rounded to nearest
and a half goes away from zero; a negative number keeps its sign even when only zeros are left.
Main statements: the rounded quotient is within half a unit of the exact one
(`two_mul_mul_divideRounded_le`, `lt_two_mul_mul_divideRounded`).
-/

namespace LedgerValue.Number

/-- The number of places in the default rendering. -/
def defaultPlaces : Nat := 14

/-- The quotient of two naturals rounded to nearest, a half going up. -/
def divideRounded (n d : Nat) : Nat :=
  if d ≤ 2 * (n % d) then n / d + 1 else n / d

/-- Sets a point so that `places` digits stand after it, with zeros in front where they lack. -/
def placePoint (places : Nat) (ds : List Char) : List Char :=
  if places = 0 then ds
  else
    let padded := Text.zeroPadded (places + 1) ds
    padded.take (padded.length - places) ++ '.' :: padded.drop (padded.length - places)

/-- The rendering with exactly `places` decimal places. -/
def renderChars (n : Number) (places : Nat) : List Char :=
  let unsigned := placePoint places
    (Text.digits (divideRounded (n.num.natAbs * Nat.pow 10 places) n.den))
  if n < 0 then '-' :: unsigned else unsigned

/-- The rendering as a string. -/
def render (n : Number) (places : Nat) : String := String.ofList (n.renderChars places)

theorem two_mul_mul_divideRounded_le {n d : Nat} (hd : 0 < d) :
    2 * (d * divideRounded n d) ≤ 2 * n + d := by
  have hsplit := Nat.div_add_mod n d
  have hmod := Nat.mod_lt n hd
  unfold divideRounded
  split
  · rw [Nat.mul_add]
    omega
  · omega

theorem lt_two_mul_mul_divideRounded {n d : Nat} (hd : 0 < d) :
    2 * n < 2 * (d * divideRounded n d) + d := by
  have hsplit := Nat.div_add_mod n d
  have hmod := Nat.mod_lt n hd
  unfold divideRounded
  split
  · rw [Nat.mul_add]
    omega
  · omega

end LedgerValue.Number

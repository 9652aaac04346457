import LedgerValue.Number.Basic

/-!
# Asset amounts

An amount counts ten-millionths of a unit in a signed word of 64 bits. It widens to an exact
number, and nothing narrows to it. Main statement: amounts are ordered as their counts are
(`lt_iff_raw_lt`).
-/

namespace LedgerValue

/-- An amount of an asset. -/
structure AssetAmount where
  /-- The count of ten-millionths. -/
  raw : Int64
deriving DecidableEq

namespace AssetAmount

/-- The counts that make one unit. -/
def scale : Nat := 10000000

/-- The decimal places that the scale implies. -/
def places : Nat := 7

instance : LT AssetAmount := ⟨fun left right => left.raw < right.raw⟩

instance : LE AssetAmount := ⟨fun left right => left.raw ≤ right.raw⟩

instance (left right : AssetAmount) : Decidable (left < right) :=
  inferInstanceAs (Decidable (left.raw < right.raw))

instance (left right : AssetAmount) : Decidable (left ≤ right) :=
  inferInstanceAs (Decidable (left.raw ≤ right.raw))

/-- The amount in units, exactly. -/
def toNumber (amount : AssetAmount) : Number := mkRat amount.raw.toInt scale

/-- Whole units, a point and seven places, after a minus sign for negatives. -/
def chars (amount : AssetAmount) : List Char :=
  let magnitude := amount.raw.toInt.natAbs
  (if amount.raw < 0 then ['-'] else []) ++ Text.digits (magnitude / scale)
    ++ '.' :: Text.zeroPadded places (Text.digits (magnitude % scale))

/-- The amount as a string. -/
def text (amount : AssetAmount) : String := String.ofList amount.chars

theorem lt_iff_raw_lt {left right : AssetAmount} : left < right ↔ left.raw < right.raw := Iff.rfl

end AssetAmount

end LedgerValue

import LedgerValue.AssetAmount
import LedgerValue.Proofs.Number.Rendering

/-!
# Amounts as numbers

An amount is written from its count by dividing words, and the number that it stands for is written
by reducing a fraction, scaling it and rounding. Main statement: the two give the same text, which
reads back as the number, and amounts are in the order of their numbers (`text_eq_render`).
-/

namespace LedgerValue.AssetAmount

variable (amount other : AssetAmount)

/-- The count in a word of 128 bits, which can also hold its size. -/
def wide : BitVec 128 := amount.raw.toBitVec.signExtend 128

/-- The counts that make one unit, in a word of 128 bits. -/
def wideScale : BitVec 128 := BitVec.ofNat 128 scale

/-- Computed in signed words of 128 bits, nothing that the text is made of wraps around. -/
structure FitsWide : Prop where
  /-- The count. -/
  raw : amount.wide.toInt = amount.raw.toInt
  /-- Its size. -/
  magnitude : amount.wide.abs.toInt = amount.raw.toInt.natAbs
  /-- The whole units. -/
  units : (amount.wide.abs.sdiv wideScale).toInt = (amount.raw.toInt.natAbs / scale : Nat)
  /-- What is left of the last unit. -/
  rest : (amount.wide.abs.srem wideScale).toInt = (amount.raw.toInt.natAbs % scale : Nat)

theorem toInt_wide : amount.wide.toInt = amount.raw.toInt :=
  BitVec.toInt_signExtend_of_le (by decide)

/-- The least count has a size, which words of 64 bits do not hold but words of 128 bits do. -/
theorem fitsWide : amount.FitsWide := by
  have hraw := amount.toInt_wide
  have hlow := amount.raw.le_toInt
  have hscale : wideScale.toInt = scale := by decide
  have hleast : (BitVec.intMin 128).toInt = -0x80000000000000000000000000000000 := by decide
  have hmagnitude : amount.wide.abs.toInt = amount.raw.toInt.natAbs := by
    rw [BitVec.toInt_abs_eq_natAbs, if_neg, hraw]
    intro hmin
    rw [hmin, hleast] at hraw
    omega
  refine ⟨hraw, hmagnitude, ?_, ?_⟩
  · rw [BitVec.toInt_sdiv_of_ne_or_ne _ _ (.inr (by decide)), hmagnitude, hscale]
    rfl
  · rw [BitVec.toInt_srem, hmagnitude, hscale]
    rfl

theorem toNumber_eq : amount.toNumber = amount.raw.toInt / (10 : ℚ) ^ places := by
  rw [toNumber, Rat.mkRat_eq_div]
  norm_num [scale, places]

theorem scale_eq : scale = Nat.pow 10 places := by decide

/-- The count is the whole number of units of the last place. -/
theorem natAbs_num_mul :
    amount.toNumber.num.natAbs * Nat.pow 10 places =
      amount.raw.toInt.natAbs * amount.toNumber.den := by
  have hcross : amount.toNumber.num * scale = amount.raw.toInt * amount.toNumber.den := by
    rw [← Rat.mkRat_eq_iff amount.toNumber.den_nz (by decide), Rat.mkRat_self, toNumber]
  have hsizes := congrArg Int.natAbs hcross
  rwa [Int.natAbs_mul, Int.natAbs_mul, Int.natAbs_natCast, Int.natAbs_natCast, scale_eq] at hsizes

theorem chars_eq_renderChars : amount.chars = amount.toNumber.renderChars places := by
  have hnegative : amount.raw < 0 ↔ amount.toNumber < 0 := by
    rw [toNumber_eq, div_lt_iff₀ (by positivity), zero_mul, Int.cast_lt_zero,
      Int64.lt_iff_toInt_lt]
    rfl
  have hsteps := Number.steps_of_mul_eq amount.natAbs_num_mul
  rw [Number.steps] at hsteps
  rw [chars, Number.renderChars, hsteps, Number.placePoint_digits (by decide), scale_eq]
  by_cases hsign : amount.raw < 0
  · rw [if_pos hsign, if_pos (hnegative.mp hsign)]
    rfl
  · rw [if_neg hsign, if_neg (mt hnegative.mpr hsign)]
    rfl

/-- The number has no further places than its rendering, so it is read back exactly. -/
theorem parseChars_chars : Number.parseChars amount.chars = .ok amount.toNumber := by
  have hfixed := Number.isFixed_rendering amount.toNumber places
  have hnearest := Number.isNearest_rendering amount.toNumber places
  have hmultiple : ∃ k : Int, amount.toNumber = k * (10 : ℚ) ^ (-(places : Int)) :=
    ⟨amount.raw.toInt, by rw [toNumber_eq, zpow_neg, zpow_natCast, div_eq_mul_inv]⟩
  rw [chars_eq_renderChars, hfixed.parseChars_eq_ok (by decide),
    (Number.eq_of_isNearest_iff hnearest).mpr hmultiple]

theorem toNumber_lt_iff : amount.toNumber < other.toNumber ↔ amount < other := by
  rw [toNumber_eq, toNumber_eq, div_lt_div_iff_of_pos_right (by positivity), Int.cast_lt,
    ← Int64.lt_iff_toInt_lt, lt_iff_raw_lt]

theorem toNumber_le_iff : amount.toNumber ≤ other.toNumber ↔ amount ≤ other := by
  rw [toNumber_eq, toNumber_eq, div_le_div_iff_of_pos_right (by positivity), Int.cast_le,
    ← Int64.le_iff_toInt_le]
  rfl

/-- The text of an amount is its number rendered with seven places, and reads back as this number,
which is the count over ten million. Amounts are in the order of their numbers. In words of 128 bits
no step that leads to the text wraps around, whatever the count. -/
theorem text_eq_render :
    amount.text = amount.toNumber.render places ∧
    Number.parse amount.text = .ok amount.toNumber ∧
    Number.ofFraction amount.raw.toInt scale = .ok amount.toNumber ∧
    amount.toNumber = amount.raw.toInt / (10 : ℚ) ^ 7 ∧
    (amount < other ↔ amount.toNumber < other.toNumber) ∧
    (amount ≤ other ↔ amount.toNumber ≤ other.toNumber) ∧
    amount.FitsWide := by
  have htext : amount.text = amount.toNumber.render places := by
    rw [text, Number.render, chars_eq_renderChars]
  have hparse : Number.parse amount.text = .ok amount.toNumber := by
    rw [Number.parse, text, String.toList_ofList, parseChars_chars]
  have hfraction : Number.ofFraction amount.raw.toInt scale = .ok amount.toNumber := by
    rw [Number.ofFraction, if_neg (by decide), Rat.divInt_ofNat, toNumber]
  exact ⟨htext, hparse, hfraction, amount.toNumber_eq, (amount.toNumber_lt_iff other).symm,
    (amount.toNumber_le_iff other).symm, amount.fitsWide⟩

/-- The least count. -/
example : (AssetAmount.mk (-0x8000000000000000)).text = "-922337203685.4775808" := by decide +kernel

end LedgerValue.AssetAmount

import LedgerValue.HostNumber.Rounding

/-!
# Exact host numbers

A number that a host number has exactly is rounded to that host number. The only trace that is
lost is the sign of zero. Main statement: `ofNumber_of_toNumber`.
-/

namespace LedgerValue.HostNumber

/-- The number with zero taken as positive. -/
def withPositiveZero : HostNumber → HostNumber
  | finite negative rank => finite (negative && rank.val != 0) rank
  | other => other

theorem powerOfTwo_pos (exponent : Nat) : 0 < Nat.pow 2 exponent := Nat.two_pow_pos exponent

theorem unitsPerOne_pos : 0 < unitsPerOne := by
  unfold unitsPerOne
  generalize 1074 = exponent
  exact powerOfTwo_pos exponent

@[simp]
theorem units_zero : units 0 = 0 := rfl

theorem units_pos_iff {rank : Nat} : 0 < units rank ↔ 0 < rank := by
  constructor
  · intro hunits
    refine Nat.pos_of_ne_zero fun hzero => ?_
    rw [hzero, units_zero] at hunits
    exact Nat.lt_irrefl 0 hunits
  · intro hrank
    have hlt := units_lt_units hrank
    rwa [units_zero] at hlt

theorem divideHalfEven_mul {n d : Nat} (hd : 0 < d) : divideHalfEven (n * d) d = n := by
  have hquotient : n * d / d = n := Nat.mul_div_cancel n hd
  have hremainder : n * d % d = 0 := Nat.mul_mod_left n d
  simp only [divideHalfEven, hquotient, hremainder]
  have hne : (0 == d) = false := by simp; omega
  simp [hne]

/-- A rank is its position in the binade above a number of spacings. -/
theorem units_of_spacing {level fraction : Nat} (hfraction : fraction < 0x10000000000000) :
    units ((level + 1) * 0x10000000000000 + fraction) =
      (fraction + 0x10000000000000) * Nat.pow 2 level := by
  cases level with
  | zero =>
    rw [units, if_pos (by omega)]
    change _ = (fraction + 0x10000000000000) * 1
    omega
  | succ level =>
    have hmod : ((level + 1 + 1) * 0x10000000000000 + fraction) % 0x10000000000000 = fraction := by
      omega
    have hdiv : ((level + 1 + 1) * 0x10000000000000 + fraction) / 0x10000000000000 = level + 2 := by
      omega
    rw [units, if_neg (by omega), hmod, hdiv]
    rfl

theorem log2_of_spacing {level fraction : Nat} (hfraction : fraction < 0x10000000000000) :
    ((fraction + 0x10000000000000) * Nat.pow 2 level).log2 = level + 52 := by
  have hpos : 0 < Nat.pow 2 level := powerOfTwo_pos level
  have hlow : Nat.pow 2 (level + 52) = 0x10000000000000 * Nat.pow 2 level := by
    rw [Nat.mul_comm]
    exact Nat.pow_add 2 level 52
  have hhigh : Nat.pow 2 (level + 52 + 1) = 0x20000000000000 * Nat.pow 2 level := by
    rw [Nat.mul_comm]
    exact Nat.pow_add 2 level 53
  refine (Nat.log2_eq_iff (Nat.ne_of_gt (Nat.mul_pos (by omega) hpos))).mpr ⟨?_, ?_⟩
  · change Nat.pow 2 (level + 52) ≤ _
    rw [hlow]
    exact Nat.mul_le_mul_right _ (by omega)
  · change _ < Nat.pow 2 (level + 52 + 1)
    rw [hhigh]
    exact Nat.mul_lt_mul_of_pos_right (by omega) hpos

/-- What is a whole number of units of some rank is nearest to that rank. -/
theorem nearestRank_units (rank : Nat) {d : Nat} (hd : 0 < d) :
    nearestRank (units rank * d) d = rank := by
  have hquotient : units rank * d / d = units rank := Nat.mul_div_cancel _ hd
  simp only [nearestRank, hquotient]
  by_cases hsmall : rank < 0x10000000000000
  · have hunits : units rank = rank := by rw [units, if_pos (by omega)]
    have hlog : rank.log2 - 52 = 0 := by
      rcases Nat.eq_zero_or_pos rank with rfl | hpos
      · rfl
      · have hlt : rank.log2 < 53 := (Nat.log2_lt (by omega)).mpr (by omega)
        omega
    rw [hunits, hlog]
    change 0 * 0x10000000000000 + divideHalfEven (rank * d) (d * 1) = rank
    rw [Nat.mul_one, divideHalfEven_mul hd]
    omega
  · obtain ⟨level, fraction, hfraction, rfl⟩ : ∃ level fraction, fraction < 0x10000000000000 ∧
        rank = (level + 1) * 0x10000000000000 + fraction :=
      ⟨rank / 0x10000000000000 - 1, rank % 0x10000000000000, by omega, by omega⟩
    have hpos : 0 < d * Nat.pow 2 level := Nat.mul_pos hd (powerOfTwo_pos level)
    have hshape : (fraction + 0x10000000000000) * Nat.pow 2 level * d =
        (fraction + 0x10000000000000) * (d * Nat.pow 2 level) := by
      rw [Nat.mul_assoc, Nat.mul_comm d]
    rw [units_of_spacing hfraction, log2_of_spacing hfraction, Nat.add_sub_cancel, hshape,
      divideHalfEven_mul hpos]
    omega

/-- The exact value of some units, as a fraction in lowest terms. -/
theorem units_fraction {size : Int} {n : Number} (hn : mkRat size unitsPerOne = n) :
    n.num.natAbs * unitsPerOne = size.natAbs * n.den ∧ (n < 0 ↔ size < 0) := by
  obtain ⟨num, den, hden, hreduced⟩ := n
  obtain ⟨common, hcommon, hsize, hone⟩ := Rat.mkRat_num_den (Nat.ne_of_gt unitsPerOne_pos) hn
  have hpos : (0 : Int) < common := by omega
  constructor
  · simp only [hsize, hone, Int.natAbs_mul, Int.natAbs_natCast]
    rw [Nat.mul_assoc, Nat.mul_comm common den]
  · rw [← Rat.not_le, ← Rat.num_nonneg, Int.not_le, hsize]
    constructor
    · exact fun hneg => Int.mul_neg_of_neg_of_pos hneg hpos
    · intro hneg
      refine Int.not_le.mp fun hnonneg => ?_
      have hproduct : 0 ≤ num * (common : Int) := Int.mul_nonneg hnonneg (Int.le_of_lt hpos)
      omega

/-- Rounding undoes taking the exact value, up to the sign of zero. -/
theorem ofNumber_of_toNumber {x : HostNumber} {n : Number} (hn : x.toNumber = .ok n) :
    ofNumber n = x.withPositiveZero := by
  cases x with
  | nan => cases hn
  | infinity negative => cases hn
  | finite negative rank =>
    obtain ⟨hsize, hsign⟩ := units_fraction (Except.ok.inj hn)
    have habs : (if negative then -(units rank : Int) else units rank).natAbs = units rank := by
      cases negative <;> simp
    have hrank : nearestRank (n.num.natAbs * unitsPerOne) n.den = rank := by
      rw [hsize, habs, nearestRank_units rank n.den_pos]
    have hnegative : decide (n < 0) = (negative && rank.val != 0) := by
      have hpos := @units_pos_iff rank
      cases negative with
      | false =>
        rw [Bool.false_and, decide_eq_false_iff_not, hsign, if_neg (by decide)]
        omega
      | true =>
        rw [Bool.true_and, Bool.eq_iff_iff, decide_eq_true_eq, hsign, if_pos rfl, bne_iff_ne]
        omega
    rw [ofNumber, hrank, hnegative, ofRank, dif_pos rank.isLt, withPositiveZero]

end LedgerValue.HostNumber

import LedgerValue.Proofs.HostNumber.Exact
import Mathlib.Tactic.Ring

/-!
# The range of host numbers

Rounding leaves the finite host numbers exactly at the magnitude half a step past the largest of
them, which itself rounds up to infinity (`isFinite_ofNumber_iff`).
-/

namespace LedgerValue.HostNumber

/-- The least magnitude that rounds to infinity: half a step past the largest finite magnitude. -/
def rangeEnd : Nat := 0x3FFFFFFFFFFFFF * Nat.pow 2 970

theorem divideHalfEven_le (n d : Nat) : divideHalfEven n d ≤ n / d + 1 := by
  simp only [divideHalfEven]
  split <;> omega

theorem le_divideHalfEven (n d : Nat) : n / d ≤ divideHalfEven n d := by
  simp only [divideHalfEven]
  split <;> omega

/-- A quotient rounds below an even number if it is nearer to the odd one before: in the middle
between the two it rounds to the even one. -/
theorem divideHalfEven_lt_iff {n d k : Nat} (hd : 0 < d) (hk : k % 2 = 0) :
    divideHalfEven n d < k ↔ 2 * n + d < 2 * (d * k) := by
  have hdivision : d * (n / d) + n % d = n := Nat.div_add_mod n d
  have hremainder : n % d < d := Nat.mod_lt n hd
  rcases Nat.lt_trichotomy (n / d + 1) k with hbelow | hnext | habove
  · have hproduct : d * (n / d + 2) ≤ d * k := Nat.mul_le_mul_left d hbelow
    have hrounded := divideHalfEven_le n d
    rw [Nat.mul_add] at hproduct
    omega
  · have hproduct : d * (n / d) + d = d * k := by rw [← hnext, Nat.mul_add, Nat.mul_one]
    have hodd : n / d % 2 = 1 := by omega
    simp only [divideHalfEven, hodd, beq_self_eq_true, Bool.and_true, Bool.or_eq_true,
      decide_eq_true_eq, beq_iff_eq]
    split <;> omega
  · have hproduct : d * k ≤ d * (n / d) := Nat.mul_le_mul_left d (by omega)
    have hrounded := le_divideHalfEven n d
    omega

theorem twice_powerOfTwo_le {low high : Nat} (hlt : low < high) :
    2 * Nat.pow 2 low ≤ Nat.pow 2 high := by
  have hmono : Nat.pow 2 (low + 1) ≤ Nat.pow 2 high := Nat.pow_le_pow_right (by decide) hlt
  have hsucc : Nat.pow 2 (low + 1) = Nat.pow 2 low * 2 := rfl
  omega

/-- A magnitude stays below the first rank of the binade past a level exactly if it stays below the
middle between the magnitudes of that rank and the one before. -/
theorem nearestRank_lt_iff {n d level : Nat} (hd : 0 < d) :
    nearestRank n d < (level + 2) * 0x10000000000000 ↔
      2 * n + d * Nat.pow 2 level < 2 * (d * Nat.pow 2 level * 0x20000000000000) := by
  have hdivision : d * (n / d) + n % d = n := Nat.div_add_mod n d
  have hremainder : n % d < d := Nat.mod_lt n hd
  simp only [nearestRank]
  generalize hspacing : (n / d).log2 - 52 = spacing
  have hstep : 0 < d * Nat.pow 2 spacing := Nat.mul_pos hd (powerOfTwo_pos spacing)
  have hpower : Nat.pow 2 (spacing + 53) = Nat.pow 2 spacing * 0x20000000000000 :=
    Nat.pow_add 2 spacing 53
  -- The rank is found in the binade of the magnitude, so the two binades are compared.
  rcases Nat.lt_trichotomy spacing level with hbelow | rfl | habove
  · have hsize : n / d < Nat.pow 2 (spacing + 53) :=
      Nat.lt_of_lt_of_le Nat.lt_log2_self (Nat.pow_le_pow_right (by decide) (by omega))
    have hproduct : d * (n / d + 1) ≤ d * Nat.pow 2 (spacing + 53) := Nat.mul_le_mul_left d hsize
    have hlevels : d * (2 * Nat.pow 2 spacing) ≤ d * Nat.pow 2 level :=
      Nat.mul_le_mul_left d (twice_powerOfTwo_le hbelow)
    rw [hpower, ← Nat.mul_assoc, Nat.mul_add] at hproduct
    rw [Nat.mul_left_comm] at hlevels
    have hquotient : n / (d * Nat.pow 2 spacing) < 0x20000000000000 := by
      rw [Nat.div_lt_iff_lt_mul hstep]
      omega
    have hrounded := divideHalfEven_le n (d * Nat.pow 2 spacing)
    omega
  · have hrounded := divideHalfEven_lt_iff (n := n) (k := 0x20000000000000) hstep (by decide)
    rw [← hrounded]
    omega
  · have hnonzero : n / d ≠ 0 := by
      rintro hzero
      rw [hzero] at hspacing
      have hlog : Nat.log2 0 = 0 := by decide
      omega
    have hlog : (n / d).log2 = spacing + 52 := by omega
    have hsize : Nat.pow 2 (spacing + 52) ≤ n / d := by
      rw [← hlog]
      exact Nat.log2_self_le hnonzero
    have hpower' : Nat.pow 2 (spacing + 52) = Nat.pow 2 spacing * 0x10000000000000 :=
      Nat.pow_add 2 spacing 52
    have hproduct : d * Nat.pow 2 (spacing + 52) ≤ d * (n / d) := Nat.mul_le_mul_left d hsize
    have hlevels : d * (2 * Nat.pow 2 level) ≤ d * Nat.pow 2 spacing :=
      Nat.mul_le_mul_left d (twice_powerOfTwo_le habove)
    rw [hpower', ← Nat.mul_assoc] at hproduct
    rw [Nat.mul_left_comm] at hlevels
    have hquotient : 0x10000000000000 ≤ n / (d * Nat.pow 2 spacing) := by
      rw [Nat.le_div_iff_mul_le hstep]
      omega
    have hrounded := le_divideHalfEven n (d * Nat.pow 2 spacing)
    omega

theorem isFinite_ofRank_iff {negative : Bool} {rank : Nat} :
    (ofRank negative rank).isFinite = true ↔ rank < rankCount := by
  rw [ofRank]
  split <;> simp_all [isFinite]

theorem powerOfTwo_succ_add (exponent further : Nat) :
    Nat.pow 2 (exponent + 1 + further) = 2 * Nat.pow 2 exponent * Nat.pow 2 further := by
  have hsplit : 2 ^ (exponent + 1 + further) = 2 ^ exponent * 2 * 2 ^ further := by
    rw [Nat.pow_add, Nat.pow_succ]
  rw [Nat.mul_comm 2]
  exact hsplit

/-- With `exponent` for the units in one and `further` for the binades past it, a magnitude stays
below a binade if it stays below the middle before it. -/
theorem nearestRank_mul_powerOfTwo_lt_iff {size d exponent further : Nat} (hd : 0 < d) :
    nearestRank (size * Nat.pow 2 exponent) d < (exponent + 1 + further + 2) * 0x10000000000000 ↔
      size < 0x3FFFFFFFFFFFFF * Nat.pow 2 further * d := by
  have hunit : 0 < 2 * Nat.pow 2 exponent := Nat.mul_pos (by decide) (powerOfTwo_pos exponent)
  rw [nearestRank_lt_iff hd, powerOfTwo_succ_add]
  generalize Nat.pow 2 exponent = unit at hunit ⊢
  generalize Nat.pow 2 further = gap
  have hleft : 2 * (size * unit) + d * (2 * unit * gap) = (size + gap * d) * (2 * unit) := by
    ring
  have hright : 2 * (d * (2 * unit * gap) * 0x20000000000000) =
      (0x40000000000000 * (gap * d)) * (2 * unit) := by
    ring
  rw [hleft, hright, Nat.mul_lt_mul_right hunit, Nat.mul_assoc]
  omega

/-- An exact number rounds to a finite host number exactly if it stays below the end of the range
on either side of zero. -/
theorem isFinite_ofNumber_iff {n : Number} :
    (ofNumber n).isFinite = true ↔ n.num.natAbs < rangeEnd * n.den := by
  have hcount : rankCount = (1074 + 1 + 970 + 2) * 0x10000000000000 := by decide
  rw [ofNumber, isFinite_ofRank_iff, hcount]
  unfold unitsPerOne rangeEnd
  -- The exponents are made variables, so that no power is evaluated.
  generalize 1074 = exponent
  generalize 970 = further
  exact nearestRank_mul_powerOfTwo_lt_iff n.den_pos

end LedgerValue.HostNumber

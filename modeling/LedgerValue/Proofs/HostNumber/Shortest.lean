import LedgerValue.HostNumber.Shortest
import LedgerValue.Proofs.HostNumber.Exact
import LedgerValue.Proofs.Number.Literal
import LedgerValue.Proofs.Text.Digits
import Mathlib.Data.List.TakeWhile
import Mathlib.Tactic.Positivity
import Mathlib.Tactic.Ring

/-!
# What shortest decimals denote

A decimal rounds to a rank that depends on nothing but the number it denotes
(`rank_eq_of_value_eq`), so that zeros at its end may be moved into the exponent. Main statement:
the shortest decimal of a magnitude rounds back to the magnitude (`rank_shortest`), and so no two
magnitudes have shortest decimals of one value (`eq_of_value_shortest_eq`).
-/

namespace LedgerValue.HostNumber

variable {n d m k rank other : Nat} {decimal : Decimal} {exponent : Int}

section Rounding

theorem divideHalfEven_mul_right (hk : 0 < k) :
    divideHalfEven (n * k) (d * k) = divideHalfEven n d := by
  have hquotient : n * k / (d * k) = n / d := Nat.mul_div_mul_right n d hk
  have hremainder : n * k % (d * k) = n % d * k := Nat.mul_mod_mul_right k n d
  have htwice : 2 * (n % d * k) = 2 * (n % d) * k := (Nat.mul_assoc ..).symm
  have hless : d * k < 2 * (n % d) * k ↔ d < 2 * (n % d) := Nat.mul_lt_mul_right hk
  have hequal : 2 * (n % d) * k = d * k ↔ 2 * (n % d) = d := Nat.mul_left_inj hk.ne'
  have hsame : (2 * (n % d) * k == d * k) = (2 * (n % d) == d) := by
    rw [Bool.eq_iff_iff, beq_iff_eq, beq_iff_eq, hequal]
  simp only [divideHalfEven, hquotient, hremainder, htwice, hless, hsame]

/-- A common factor does not matter. -/
theorem nearestRank_mul_right (hk : 0 < k) : nearestRank (n * k) (d * k) = nearestRank n d := by
  have hquotient : n * k / (d * k) = n / d := Nat.mul_div_mul_right n d hk
  simp only [nearestRank, hquotient, Nat.mul_right_comm d k, divideHalfEven_mul_right hk]

theorem nearestRank_eq_of_mul_eq {n' d' : Nat} (hd : 0 < d) (hd' : 0 < d')
    (hsame : n * d' = n' * d) : nearestRank n d = nearestRank n' d' := by
  rw [← nearestRank_mul_right hd', hsame, Nat.mul_comm d d', nearestRank_mul_right hd]

theorem nearestRank_zero (d : Nat) : nearestRank 0 d = 0 := by
  have hlog : Nat.log2 0 = 0 := by decide
  simp [nearestRank, divideHalfEven, hlog]

end Rounding

namespace Decimal

/-- The number that a decimal denotes. -/
def value (decimal : Decimal) : Number := (decimal.coefficient : ℚ) * (10 : ℚ) ^ decimal.exponent

theorem steps_pos (hd : 0 < d) (exponent : Int) : 0 < (steps n d exponent).2 := by
  unfold steps
  split
  · exact Nat.mul_pos hd (Nat.pow_pos (by decide))
  · exact hd

/-- Counting in steps divides by the power of ten. -/
theorem steps_div (n d : Nat) (exponent : Int) :
    ((steps n d exponent).1 / (steps n d exponent).2 : ℚ) = n / d / (10 : ℚ) ^ exponent := by
  unfold steps
  split
  · rename_i hexponent
    obtain ⟨k, rfl⟩ := Int.eq_ofNat_of_zero_le hexponent
    rw [Int.toNat_natCast, Nat.cast_mul, Number.cast_powerOfTen, zpow_natCast, div_mul_eq_div_div]
  · rename_i hexponent
    obtain ⟨k, rfl⟩ : ∃ k : Nat, exponent = -(k : Int) := ⟨exponent.natAbs, by omega⟩
    rw [Int.natAbs_neg, Int.natAbs_natCast, Nat.cast_mul, Number.cast_powerOfTen, zpow_neg,
      zpow_natCast, div_inv_eq_mul, mul_div_right_comm]

/-- The number of units that a decimal denotes, as the fraction of which the nearest rank is
taken. -/
def fraction (decimal : Decimal) : Nat × Nat :=
  steps (decimal.coefficient * unitsPerOne) 1 (-decimal.exponent)

theorem rank_eq_fraction (decimal : Decimal) :
    decimal.rank = nearestRank decimal.fraction.1 decimal.fraction.2 := rfl

theorem fraction_pos (decimal : Decimal) : 0 < decimal.fraction.2 := steps_pos Nat.one_pos _

theorem value_mul_unitsPerOne (decimal : Decimal) :
    decimal.value * unitsPerOne = (decimal.fraction.1 / decimal.fraction.2 : ℚ) := by
  rw [fraction, steps_div, value, zpow_neg, div_inv_eq_mul, Nat.cast_one, div_one, Nat.cast_mul,
    mul_right_comm]

/-- The rank is found from any fraction of the same size. -/
theorem rank_eq_nearestRank (hd : 0 < d) (hvalue : decimal.value * unitsPerOne = (n / d : ℚ)) :
    decimal.rank = nearestRank n d := by
  have hpositive := decimal.fraction_pos
  rw [value_mul_unitsPerOne, div_eq_div_iff (by positivity) (by positivity)] at hvalue
  exact nearestRank_eq_of_mul_eq hpositive hd (by exact_mod_cast hvalue)

theorem rank_eq_of_value_eq {other : Decimal} (hvalue : decimal.value = other.value) :
    decimal.rank = other.rank := by
  rw [rank_eq_fraction other]
  exact rank_eq_nearestRank other.fraction_pos (hvalue ▸ other.value_mul_unitsPerOne)

theorem coefficient_pos_of_rank_pos (hrank : 0 < decimal.rank) : 0 < decimal.coefficient := by
  refine Nat.pos_of_ne_zero fun hzero => hrank.ne' ?_
  have hvalue : decimal.value * unitsPerOne = ((0 : Nat) / (1 : Nat) : ℚ) := by
    rw [value, hzero, Nat.cast_zero, zero_mul, zero_mul, zero_div]
  rw [rank_eq_nearestRank Nat.one_pos hvalue, nearestRank_zero]

/-- Zeros at the end of the digits of a number are factors of ten. -/
theorem dvd_of_trailing_zeros (n : Nat) :
    Nat.pow 10 ((Text.digits n).reverse.takeWhile (· == '0')).length ∣ n := by
  have hsplit := List.takeWhile_append_dropWhile (p := (· == '0')) (l := (Text.digits n).reverse)
  generalize hzeros : (Text.digits n).reverse.takeWhile (· == '0') = zeros at hsplit
  have hall : zeros = List.replicate zeros.length '0' := by
    refine List.eq_replicate_iff.mpr ⟨rfl, fun c hmem => ?_⟩
    rw [← hzeros] at hmem
    have hzero := List.mem_takeWhile_imp hmem
    exact eq_of_beq hzero
  generalize (Text.digits n).reverse.dropWhile (· == '0') = front at hsplit
  generalize zeros.length = count at hall ⊢
  rw [← List.reverse_eq_iff, hall, List.reverse_append, List.reverse_replicate] at hsplit
  refine ⟨Text.readDigits front.reverse, ?_⟩
  rw [← Text.readDigits_digits n, ← hsplit, Text.readDigits_append_zeros]

theorem value_trim (decimal : Decimal) : decimal.trim.value = decimal.value := by
  obtain ⟨coefficient, exponent⟩ := decimal
  have hdvd := dvd_of_trailing_zeros coefficient
  simp only [trim, value]
  generalize ((Text.digits coefficient).reverse.takeWhile (· == '0')).length = zeros at hdvd ⊢
  obtain ⟨rest, rfl⟩ := hdvd
  have hquotient : Nat.pow 10 zeros * rest / Nat.pow 10 zeros = rest :=
    Nat.mul_div_cancel_left rest (Nat.pow_pos (by decide))
  rw [hquotient, zpow_add₀ (by norm_num), zpow_natCast, Nat.cast_mul, Number.cast_powerOfTen]
  ring

end Decimal

theorem rank_of_neighbour? (hfound : neighbour? rank exponent = some decimal) :
    decimal.rank = rank := by
  simp only [neighbour?] at hfound
  split at hfound
  · rename_i hbelow
    rw [Bool.and_eq_true, beq_iff_eq] at hbelow
    rw [← Option.some.inj hfound, hbelow.1]
  · split at hfound
    · rename_i habove
      rw [← Option.some.inj hfound, eq_of_beq habove]
    · cases hfound

/-- A fraction of a power of two has as many decimal places. -/
theorem value_exact (size places : Nat) :
    Decimal.value ⟨size * Nat.pow 10 places / Nat.pow 2 places, -(places : Int)⟩
      * (Nat.pow 2 places : Nat) = size := by
  have hten : Nat.pow 10 places = Nat.pow 5 places * Nat.pow 2 places := Nat.mul_pow 5 2 places
  have hquotient : size * Nat.pow 10 places / Nat.pow 2 places = size * Nat.pow 5 places := by
    rw [hten, ← Nat.mul_assoc, Nat.mul_div_cancel _ (powerOfTwo_pos places)]
  rw [Decimal.value, hquotient, zpow_neg, zpow_natCast, mul_right_comm, ← Nat.cast_mul,
    Nat.mul_assoc, ← hten, Nat.cast_mul, Number.cast_powerOfTen]
  exact mul_inv_cancel_right₀ (pow_ne_zero _ (by norm_num)) _

theorem rank_exact (rank : Nat) :
    Decimal.rank ⟨units rank * Nat.pow 10 1074 / unitsPerOne, -1074⟩ = rank := by
  have hunits := nearestRank_units rank Nat.one_pos
  have hplaces : (-1074 : Int) = -((1074 : Nat) : Int) := by decide
  rw [Nat.mul_one] at hunits
  refine (Decimal.rank_eq_nearestRank Nat.one_pos ?_).trans hunits
  rw [Nat.cast_one, div_one, hplaces]
  unfold unitsPerOne
  -- The exponent is made a variable, so that no power is evaluated.
  generalize 1074 = places
  exact value_exact (units rank) places

theorem rank_shortest (rank : Nat) : (shortest rank).rank = rank := by
  rw [shortest, Decimal.rank_eq_of_value_eq (Decimal.value_trim _)]
  generalize hfound : (List.range maxDigits).findSome? _ = found
  cases found with
  | none => exact rank_exact rank
  | some decimal =>
    obtain ⟨_, _, hneighbour⟩ := List.exists_of_findSome?_eq_some hfound
    exact rank_of_neighbour? hneighbour

theorem coefficient_shortest_pos (hrank : 0 < rank) : 0 < (shortest rank).coefficient := by
  refine Decimal.coefficient_pos_of_rank_pos ?_
  rwa [rank_shortest]

theorem eq_of_value_shortest_eq (hvalue : (shortest rank).value = (shortest other).value) :
    rank = other := by
  rw [← rank_shortest rank, Decimal.rank_eq_of_value_eq hvalue, rank_shortest]

end LedgerValue.HostNumber

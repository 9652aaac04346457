import LedgerValue.HostNumber.Text
import LedgerValue.Number.Decimal
import LedgerValue.Proofs.HostNumber.Shortest
import LedgerValue.Proofs.Number.Literal

/-!
# Telling host numbers apart by their text

The marked text of a finite host number spells a literal with its sign, whose size is the shortest
decimal of its magnitude (`exists_spells_marked`). A text spells one literal, and no two magnitudes
share a shortest decimal, so that the marked text determines the number, the sign of zero included.
Main statement: `eq_of_marked_eq`.
-/

namespace LedgerValue

namespace Literal

/-- The size of what a literal denotes. -/
def size (literal : Literal) : Number :=
  (Text.readDigits (literal.whole ++ literal.fraction) : ℚ) * (10 : ℚ) ^ literal.scale

/-- The text spells a literal without a sign, and what it denotes has the size. -/
def SpellsSize (text : List Char) (size : Number) : Prop :=
  ∃ mantissa exponent, ∃ literal : Literal,
    SpellsMantissa mantissa literal.whole literal.fraction ∧
      SpellsExponent exponent literal.exponent ∧ text = mantissa ++ exponent ∧ literal.size = size

variable {text ds : List Char} {s : Number} {literal : Literal} {exponent : Int}

theorem exists_spells_of_size (hsize : SpellsSize text s) (negative : Bool) :
    ∃ literal, Spells (Text.minus negative ++ text) literal ∧ literal.negative = negative ∧
      literal.size = s := by
  obtain ⟨mantissa, exponent, literal, hmantissa, hexponent, rfl, rfl⟩ := hsize
  exact ⟨{ literal with negative }, ⟨mantissa, exponent, hmantissa, hexponent, rfl⟩, rfl, rfl⟩

theorem spellsExponent_signedDigits (n : Int) : SpellsExponent ('e' :: Text.signedDigits n) n := by
  have hwritten := @SpellsExponent.written 'e' (n < 0) (Text.digits n.natAbs) (.inl rfl)
    (Text.allDigits_digits _) (Text.digits_ne_nil _)
  rw [← Text.signedDigits_eq, Text.readDigits_digits] at hwritten
  have hsigned : (if decide (n < 0) = true then -(n.natAbs : Int) else n.natAbs) = n := by
    split
    · rename_i hnegative
      rw [decide_eq_true_eq] at hnegative
      omega
    · rename_i hnonneg
      rw [decide_eq_true_eq] at hnonneg
      omega
  rwa [hsigned] at hwritten

/-- With one digit before the point the exponent is the power of ten of that digit. -/
theorem spellsSize_scientific (hdigits : Text.allDigits ds = true) (hne : ds ≠ [])
    (exponent : Int) :
    SpellsSize (HostNumber.scientific ds exponent)
      ((Text.readDigits ds : ℚ) * (10 : ℚ) ^ exponent) := by
  obtain ⟨first, rest, rfl⟩ := List.exists_cons_of_ne_nil hne
  have hfirst : Text.allDigits [first] = true := Text.allDigits_of_subset hdigits (by simp)
  have hrest : Text.allDigits rest = true := Text.allDigits_of_subset hdigits (by simp)
  let leading := exponent + (first :: rest).length - 1
  refine ⟨[first] ++ (if (first :: rest).length ≤ 1 then [] else '.' :: rest),
    'e' :: Text.signedDigits leading, ⟨false, [first], rest, leading⟩, ?_,
    spellsExponent_signedDigits leading, rfl, ?_⟩
  · split
    · rename_i hshort
      obtain rfl : rest = [] := List.length_eq_zero_iff.mp (by simpa using hshort)
      exact .whole hfirst (by simp)
    · exact .pointed hfirst hrest (.inl (by simp))
  · have hscale : leading - rest.length = exponent := by
      simp only [leading, List.length_cons]
      omega
    rw [size, scale, hscale]
    rfl

/-- A magnitude without places of its own gets one. -/
theorem spellsSize_whole (hdigits : Text.allDigits ds = true) (hexponent : 0 ≤ exponent) :
    SpellsSize (HostNumber.positional ds exponent ++ ['.', '0'])
      ((Text.readDigits ds : ℚ) * (10 : ℚ) ^ exponent) := by
  obtain ⟨zeros, rfl⟩ := Int.eq_ofNat_of_zero_le hexponent
  have hwhole : Text.allDigits (ds ++ List.replicate zeros '0') = true := by
    rw [Text.allDigits, List.all_append, Bool.and_eq_true]
    exact ⟨hdigits, List.all_eq_true.mpr fun c hmem => by rw [List.eq_of_mem_replicate hmem]; rfl⟩
  refine ⟨ds ++ List.replicate zeros '0' ++ ['.', '0'], [],
    ⟨false, ds ++ List.replicate zeros '0', ['0'], 0⟩,
    .pointed hwhole rfl (.inr (by simp)), .absent, ?_, ?_⟩
  · rw [List.append_nil, HostNumber.positional, if_pos hexponent]
    rfl
  · have hscale : (0 : Int) - (['0'].length : Nat) = -1 := rfl
    rw [size, scale, hscale, List.append_assoc, ← List.replicate_succ',
      Text.readDigits_append_zeros, Nat.cast_mul, Number.cast_powerOfTen, zpow_natCast]
    ring

theorem spellsSize_pointed (hdigits : Text.allDigits ds = true) (hexponent : exponent < 0) :
    SpellsSize (HostNumber.positional ds exponent)
      ((Text.readDigits ds : ℚ) * (10 : ℚ) ^ exponent) := by
  obtain ⟨places, rfl⟩ : ∃ places : Nat, exponent = -(places : Int) := ⟨exponent.natAbs, by omega⟩
  let padded := Text.zeroPadded (places + 1) ds
  have hlength : padded.length = max (places + 1) ds.length := Text.length_zeroPadded _ _
  have hpadded : Text.allDigits padded = true := Text.allDigits_zeroPadded _ hdigits
  have hpositional : HostNumber.positional ds (-(places : Int)) =
      padded.take (padded.length - places) ++ '.' :: padded.drop (padded.length - places) := by
    rw [HostNumber.positional, if_neg (by omega), Int.natAbs_neg, Int.natAbs_natCast]
  have hwhole : padded.take (padded.length - places) ≠ [] := by
    rw [← List.length_pos_iff, List.length_take]
    omega
  refine ⟨_, [], ⟨false, padded.take (padded.length - places),
    padded.drop (padded.length - places), 0⟩,
    .pointed (Text.allDigits_of_subset hpadded (List.take_subset _ _))
      (Text.allDigits_of_subset hpadded (List.drop_subset _ _)) (.inl hwhole),
    .absent, ?_, ?_⟩
  · rw [List.append_nil, hpositional]
  · have hscale : (0 : Int) - (padded.drop (padded.length - places)).length = -(places : Int) := by
      rw [List.length_drop]
      omega
    rw [size, scale, hscale, List.take_append_drop, Text.readDigits_zeroPadded]

theorem ne_nil_of_spellsMantissa {mantissa whole fraction : List Char}
    (hspells : SpellsMantissa mantissa whole fraction) : mantissa ≠ [] := by
  cases hspells with
  | whole _ hne => exact hne
  | pointed => simp

theorem ne_nil_of_spells (hspells : Spells text literal) : text ≠ [] := by
  obtain ⟨mantissa, exponent, hmantissa, -, rfl⟩ := hspells
  simp [ne_nil_of_spellsMantissa hmantissa]

end Literal

namespace HostNumber

variable {x y : HostNumber}

/-- The size that is spelled for the magnitude of a rank. -/
def spelledSize (rank : Nat) : Number := if rank = 0 then 0 else (shortest rank).value

theorem value_shortest (rank : Nat) :
    (Text.readDigits (Text.digits (shortest rank).coefficient) : ℚ)
      * (10 : ℚ) ^ (shortest rank).exponent = (shortest rank).value := by
  rw [Text.readDigits_digits, Decimal.value]

theorem spellsSize_markedMagnitude (rank : Nat) :
    Literal.SpellsSize (markedMagnitude rank) (spelledSize rank) := by
  have hdigits := Text.allDigits_digits (shortest rank).coefficient
  have hne := Text.digits_ne_nil (shortest rank).coefficient
  unfold markedMagnitude spelledSize
  split
  · have hwhole := @Literal.spellsSize_whole ['0'] 0 rfl (le_refl 0)
    simpa [positional, Text.readDigits, Nat.ofDigitChars] using hwhole
  · rw [← value_shortest]
    simp only
    split
    · exact Literal.spellsSize_scientific hdigits hne _
    · split
      · rename_i hexponent
        exact Literal.spellsSize_whole hdigits hexponent
      · rename_i hexponent
        exact Literal.spellsSize_pointed hdigits (not_le.mp hexponent)

theorem exists_spells_marked (negative : Bool) (rank : Fin rankCount) :
    ∃ literal, Literal.Spells (marked (finite negative rank)) literal ∧
      literal.negative = negative ∧ literal.size = spelledSize rank :=
  Literal.exists_spells_of_size (spellsSize_markedMagnitude rank) negative

theorem spelledSize_eq_zero_iff {rank : Nat} : spelledSize rank = 0 ↔ rank = 0 := by
  rw [spelledSize, ite_eq_left_iff]
  constructor
  · intro hzero
    by_contra hrank
    have hpositive := coefficient_shortest_pos (Nat.pos_of_ne_zero hrank)
    have hvalue : 0 < (shortest rank).value :=
      mul_pos (Nat.cast_pos.mpr hpositive) (zpow_pos (by norm_num) _)
    exact hvalue.ne' (hzero hrank)
  · exact fun hrank hne => absurd hrank hne

theorem eq_of_spelledSize_eq {rank other : Nat} (hsame : spelledSize rank = spelledSize other) :
    rank = other := by
  by_cases hrank : rank = 0
  · rw [hrank, eq_comm, ← spelledSize_eq_zero_iff, ← hsame, spelledSize_eq_zero_iff, hrank]
  · have hother : other ≠ 0 := by
      rwa [Ne, ← spelledSize_eq_zero_iff, ← hsame, spelledSize_eq_zero_iff]
    rw [spelledSize, spelledSize, if_neg hrank, if_neg hother] at hsame
    exact eq_of_value_shortest_eq hsame

/-- Infinity is no literal. -/
theorem marked_infinity_ne_finite (negative sign : Bool) (rank : Fin rankCount) :
    marked (infinity negative) ≠ marked (finite sign rank) := by
  intro hsame
  obtain ⟨literal, hspells, -⟩ := exists_spells_marked sign rank
  have hmem : 'i' ∈ marked (finite sign rank) := by
    rw [← hsame]
    simp [marked, spelled]
  exact absurd (Literal.mem_of_spells hspells hmem) (by decide)

/-- The marked text determines a number that is one. -/
theorem eq_of_marked_eq (hx : x ≠ nan) (hy : y ≠ nan) (hsame : x.marked = y.marked) : x = y := by
  cases x with
  | nan => exact absurd rfl hx
  | infinity negative =>
    cases y with
    | nan => exact absurd rfl hy
    | infinity sign =>
      revert hsame
      cases negative <;> cases sign <;> decide
    | finite sign rank => exact absurd hsame (marked_infinity_ne_finite negative sign rank)
  | finite negative rank =>
    cases y with
    | nan => exact absurd rfl hy
    | infinity sign => exact absurd hsame.symm (marked_infinity_ne_finite sign negative rank)
    | finite sign other =>
      obtain ⟨literal, hspells, rfl, hsize⟩ := exists_spells_marked negative rank
      obtain ⟨otherLiteral, hother, rfl, hotherSize⟩ := exists_spells_marked sign other
      obtain rfl := Literal.eq_of_spells hspells (hsame ▸ hother)
      obtain rfl := Fin.ext (eq_of_spelledSize_eq (hsize.symm.trans hotherSize))
      rfl

end HostNumber

end LedgerValue

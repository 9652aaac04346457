import LedgerValue.Proofs.Number.Literal
import LedgerValue.Proofs.Text.Digits

/-!
# The limit of literals

What is limited is the scale of a literal, its exponent less the places after the point, so that the
places written take part in the decision. Main statement: a literal is read exactly if its scale is
within the limit, which is what its exponent alone decides unless it lies in one of two gaps, each
as wide as the places (`parse_accepts_iff_scale`).
-/

namespace LedgerValue.Literal

/-- The literal with some zeros behind its last digit. -/
def withZeros (literal : Literal) (zeros : Nat) : Literal :=
  { literal with fraction := literal.fraction ++ List.replicate zeros '0' }

/-- The exponent is within the limit, but the places take the scale below it. -/
def FallsBelow (literal : Literal) : Prop :=
  -(maxScale : Int) ≤ literal.exponent ∧ literal.exponent < literal.fraction.length - maxScale

/-- The exponent is beyond the limit, but the places bring the scale down to it. -/
def FallsWithin (literal : Literal) : Prop :=
  maxScale < literal.exponent ∧ literal.exponent ≤ literal.fraction.length + maxScale

variable {text : String} {literal : Literal}

theorem coefficient_withZeros (literal : Literal) (zeros : Nat) :
    (literal.withZeros zeros).coefficient = literal.coefficient * (Nat.pow 10 zeros : Nat) := by
  have hdigits : Text.readDigits (literal.whole ++ (literal.withZeros zeros).fraction) =
      Text.readDigits (literal.whole ++ literal.fraction) * Nat.pow 10 zeros := by
    rw [withZeros, ← List.append_assoc, Text.readDigits_append_zeros, Nat.mul_comm]
  have hwhole : (literal.withZeros zeros).whole = literal.whole := rfl
  have hnegative : (literal.withZeros zeros).negative = literal.negative := rfl
  rw [coefficient, coefficient, hwhole, hdigits, hnegative]
  split
  · rw [Int.natCast_mul, Int.neg_mul]
  · rw [Int.natCast_mul]

theorem scale_withZeros (literal : Literal) (zeros : Nat) :
    (literal.withZeros zeros).scale = literal.scale - zeros := by
  simp only [scale, withZeros, List.length_append, List.length_replicate]
  omega

/-- Zeros behind the last digit make the integer of all digits greater and its unit smaller. -/
theorem value_withZeros (literal : Literal) (zeros : Nat) :
    (literal.withZeros zeros).value = literal.value := by
  have hne : (10 : ℚ) ^ zeros ≠ 0 := pow_ne_zero zeros (by norm_num)
  rw [value, value, coefficient_withZeros, scale_withZeros, zpow_sub₀ (by norm_num), zpow_natCast,
    Int.cast_mul, Int.cast_natCast, Number.cast_powerOfTen, mul_assoc, mul_div_cancel₀ _ hne]

/-- With fewer places than the limit, a scale within the limit is computed from words. -/
theorem fitsWords_of_places (hplaces : literal.fraction.length < maxScale)
    (hscale : literal.scale.natAbs ≤ maxScale) : literal.FitsWords := by
  unfold scale maxScale at *
  constructor <;> constructor <;> omega

theorem parse_eq_ok_of_scale (hspells : Spells text.toList literal)
    (hplaces : literal.fraction.length < maxScale) (hscale : literal.scale.natAbs ≤ maxScale) :
    Number.parse text = .ok literal.value :=
  parseChars_eq_ok_iff.mpr
    ⟨literal, hspells, fitsWords_of_places hplaces hscale, hscale, rfl⟩

theorem scale_le_of_parse {n : Number} (hspells : Spells text.toList literal)
    (hparse : Number.parse text = .ok n) :
    literal.scale.natAbs ≤ maxScale ∧ n = literal.value := by
  obtain ⟨other, hother, -, hscale, hvalue⟩ := parseChars_eq_ok_iff.mp hparse
  obtain rfl := eq_of_spells hspells hother
  exact ⟨hscale, hvalue⟩

theorem parse_eq_error_of_scale (hspells : Spells text.toList literal)
    (hscale : ¬literal.scale.natAbs ≤ maxScale) : Number.parse text = .error .invalidSyntax := by
  cases hparse : Number.parse text with
  | ok n => exact absurd (scale_le_of_parse hspells hparse).1 hscale
  | error cause => rw [parseChars_eq_error hparse]

theorem exists_parse_iff (hspells : Spells text.toList literal)
    (hplaces : literal.fraction.length < maxScale) :
    (∃ n, Number.parse text = .ok n) ↔ literal.scale.natAbs ≤ maxScale := by
  constructor
  · rintro ⟨n, hparse⟩
    exact (scale_le_of_parse hspells hparse).1
  · intro hscale
    exact ⟨literal.value, parse_eq_ok_of_scale hspells hplaces hscale⟩

/-- Apart from the two gaps, scale and exponent are on the same side of the limit. -/
theorem scale_le_iff_exponent_le_iff (hplaces : literal.fraction.length < maxScale) :
    (literal.scale.natAbs ≤ maxScale ↔ literal.exponent.natAbs ≤ maxScale) ↔
      ¬literal.FallsBelow ∧ ¬literal.FallsWithin := by
  unfold FallsBelow FallsWithin scale
  omega

/-- A spelling of a literal with fewer places than the limit is read exactly if the scale is within
the limit, and as the number that the literal denotes. That is what the exponent alone would decide
exactly if it lies in neither gap, and so always without places. Zeros behind the last digit leave
the number as it is, but each takes one off the scale that decides. -/
theorem parse_accepts_iff_scale (hspells : Spells text.toList literal)
    (hplaces : literal.fraction.length < maxScale) :
    ((∃ n, Number.parse text = .ok n) ↔ literal.scale.natAbs ≤ maxScale) ∧
    (((∃ n, Number.parse text = .ok n) ↔ literal.exponent.natAbs ≤ maxScale) ↔
      ¬literal.FallsBelow ∧ ¬literal.FallsWithin) ∧
    (∀ n, Number.parse text = .ok n → n = literal.value) ∧
    ∀ (zeros : Nat) (longer : String), Spells longer.toList (literal.withZeros zeros) →
      (literal.withZeros zeros).fraction.length < maxScale →
      ((∃ n, Number.parse longer = .ok n) ↔ (literal.scale - zeros).natAbs ≤ maxScale) ∧
      ∀ n, Number.parse longer = .ok n → n = literal.value := by
  have haccepts := exists_parse_iff hspells hplaces
  refine ⟨haccepts, ?_, fun n hparse => (scale_le_of_parse hspells hparse).2, ?_⟩
  · rw [haccepts]
    exact scale_le_iff_exponent_le_iff hplaces
  · intro zeros longer hlonger hlength
    refine ⟨?_, fun n hparse => ?_⟩
    · rw [exists_parse_iff hlonger hlength, scale_withZeros]
    · rw [(scale_le_of_parse hlonger hparse).2, value_withZeros]

/-- A literal at the limit falls below it with one more zero. -/
theorem parse_accepts_iff_scale_zero :
    let literal : Literal := ⟨false, ['2'], ['5'], -999999⟩
    Spells "2.5e-999999".toList literal ∧ literal.fraction.length < maxScale ∧
      Spells "2.50e-999999".toList (literal.withZeros 1) ∧
      (literal.withZeros 1).fraction.length < maxScale ∧
      (∃ n, Number.parse "2.5e-999999" = .ok n) ∧ ¬∃ n, Number.parse "2.50e-999999" = .ok n := by
  intro literal
  have hexponent := @SpellsExponent.written 'e' true ['9', '9', '9', '9', '9', '9'] (.inl rfl) rfl
    (by simp)
  have hspells : Spells "2.5e-999999".toList literal :=
    ⟨_, _, @SpellsMantissa.pointed ['2'] ['5'] rfl rfl (by simp), hexponent, rfl⟩
  have hlonger : Spells "2.50e-999999".toList (literal.withZeros 1) :=
    ⟨_, _, @SpellsMantissa.pointed ['2'] ['5', '0'] rfl rfl (by simp), hexponent, rfl⟩
  have hplaces : literal.fraction.length < maxScale := by decide
  have hlength : (literal.withZeros 1).fraction.length < maxScale := by decide
  obtain ⟨haccepts, -, -, hzeros⟩ := parse_accepts_iff_scale hspells hplaces
  refine ⟨hspells, hplaces, hlonger, hlength, haccepts.mpr (by decide), ?_⟩
  rw [(hzeros 1 _ hlonger hlength).1]
  decide

/-- An exponent beyond the limit is refused without places and taken with one. -/
theorem parse_beyond_limit :
    Spells "0e1000001".toList ⟨false, ['0'], [], 1000001⟩ ∧
      Spells "0.0e1000001".toList ⟨false, ['0'], ['0'], 1000001⟩ ∧
      1 < maxScale ∧ maxScale < 1000001 ∧
      Number.parse "0e1000001" = .error .invalidSyntax ∧ Number.parse "0.0e1000001" = .ok 0 := by
  have hexponent := @SpellsExponent.written 'e' false ['1', '0', '0', '0', '0', '0', '1'] (.inl rfl)
    rfl (by simp)
  have hbare : Spells "0e1000001".toList ⟨false, ['0'], [], 1000001⟩ :=
    ⟨_, _, @SpellsMantissa.whole ['0'] rfl (by simp), hexponent, rfl⟩
  have hpointed : Spells "0.0e1000001".toList ⟨false, ['0'], ['0'], 1000001⟩ :=
    ⟨_, _, @SpellsMantissa.pointed ['0'] ['0'] rfl rfl (by simp), hexponent, rfl⟩
  refine ⟨hbare, hpointed, by decide, by decide, parse_eq_error_of_scale hbare (by decide), ?_⟩
  rw [parse_eq_ok_of_scale hpointed (by decide) (by decide)]
  exact congrArg _ (zero_mul _)

end LedgerValue.Literal

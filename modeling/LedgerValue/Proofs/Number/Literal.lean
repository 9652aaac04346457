import LedgerValue.Number.Spelling
import LedgerValue.Proofs.Text.Utf8
import Mathlib.Algebra.Order.Field.Rat
import Mathlib.Tactic.NormNum

/-!
# What literals denote

A text spells at most one literal (`eq_of_spells`), and a literal denotes the integer of all its
digits times a power of ten, its scale. The reader computes the scale in words
(`parseChars_eq_ok_iff`). Main statement: on texts that words can count, numbers are read from
exactly the spellings whose scale is within the bound, as if the scale were computed in integers
(`parse_eq_ok_iff_spells`).
-/

namespace LedgerValue

theorem Number.cast_powerOfTen (exponent : Nat) :
    ((Nat.pow 10 exponent : Nat) : ℚ) = (10 : ℚ) ^ exponent := Nat.cast_pow 10 exponent

theorem Number.scaled_eq (coefficient exponent : Int) :
    Number.scaled coefficient exponent = (coefficient : ℚ) * (10 : ℚ) ^ exponent := by
  unfold Number.scaled
  split
  · rename_i hexponent
    obtain ⟨k, rfl⟩ := Int.eq_ofNat_of_zero_le hexponent
    rw [Rat.mkRat_eq_div, Int.cast_mul, Int.cast_natCast, Int.toNat_natCast, cast_powerOfTen,
      zpow_natCast, Nat.cast_one, div_one]
  · rename_i hexponent
    obtain ⟨k, rfl⟩ : ∃ k : Nat, exponent = -(k : Int) := ⟨exponent.natAbs, by omega⟩
    rw [Rat.mkRat_eq_div, Int.natAbs_neg, Int.natAbs_natCast, cast_powerOfTen, zpow_neg,
      zpow_natCast, div_eq_mul_inv]

namespace Literal

/-- The power of ten that the digits are multiplied by: the exponent less the places after the
point. -/
def scale (literal : Literal) : Int := literal.exponent - literal.fraction.length

/-- The integer of all digits times the power of ten. -/
def value (literal : Literal) : Number := (literal.coefficient : ℚ) * (10 : ℚ) ^ literal.scale

/-- The magnitude of the exponent and the number of places after the point are words. -/
def FitsWords (literal : Literal) : Prop :=
  Word.IsSigned literal.exponent.natAbs ∧ Word.IsSigned literal.fraction.length

variable {text exponentText : List Char} {literal other : Literal} {n : Number} {s m k : Int}

theorem exponent_unique (hm : SpellsExponent exponentText m) (hk : SpellsExponent exponentText k) :
    m = k := by
  generalize hother : exponentText = otherText at hk
  cases hm with
  | absent =>
    cases hk with
    | absent => rfl
    | written => cases hother
  | @written mark negative ds hmark hdigits hne =>
    cases hk with
    | absent => cases hother
    | @written mark' negative' ds' hmark' hdigits' hne' =>
      have hhead {ds : List Char} (hdigits : Text.allDigits ds = true) : ds.head? ≠ some '-' := by
        simpa using @head?_ne_minus ds [] hdigits fun _ => by simp
      have htail := congrArg Text.takeMinus (List.cons.inj hother).2
      rw [Text.takeMinus_minus_append (hhead hdigits),
        Text.takeMinus_minus_append (hhead hdigits')] at htail
      obtain ⟨rfl, rfl⟩ := Prod.mk.inj htail
      rfl

theorem cut_of_spellsExponent {mantissa : List Char}
    (hmantissa : ∀ c ∈ mantissa, isExponentMark c = false) (hm : SpellsExponent exponentText m) :
    (Text.cut isExponentMark (mantissa ++ exponentText)).1 = mantissa := by
  cases hm with
  | absent => rw [List.append_nil, Text.cut_of_forall hmantissa]
  | written hmark => rw [Text.cut_append_cons hmantissa (isExponentMark_iff.mpr hmark)]

/-- The signs, the mantissas and the exponents are cut off the text in turn. -/
theorem eq_of_spells (hspells : Spells text literal) (hother : Spells text other) :
    literal = other := by
  obtain ⟨mantissa, exponentText, hmantissa, hexponent, rfl⟩ := hspells
  obtain ⟨mantissa', exponentText', hmantissa', hexponent', htext⟩ := hother
  have hunsigned := congrArg Text.takeMinus htext
  rw [Text.takeMinus_minus_append (head?_ne_minus_of_spellsMantissa hmantissa),
    Text.takeMinus_minus_append (head?_ne_minus_of_spellsMantissa hmantissa')] at hunsigned
  obtain ⟨hnegative, hunsigned⟩ := Prod.mk.inj hunsigned
  have hcut := cut_of_spellsExponent (isExponentMark_of_spellsMantissa hmantissa) hexponent
  rw [hunsigned,
    cut_of_spellsExponent (isExponentMark_of_spellsMantissa hmantissa') hexponent'] at hcut
  subst hcut
  obtain rfl := List.append_cancel_left hunsigned
  have hexponents := exponent_unique hexponent hexponent'
  obtain ⟨-, -, -, tail, hpoint, hfraction⟩ := cut_of_spellsMantissa hmantissa
  obtain ⟨-, -, -, tail', hpoint', hfraction'⟩ := cut_of_spellsMantissa hmantissa'
  rw [hpoint] at hpoint'
  obtain ⟨hwhole, rfl⟩ := Prod.mk.inj hpoint'
  rw [hfraction] at hfraction'
  cases literal
  cases other
  simp_all

theorem scale?_eq_some_iff :
    literal.scale? = some s ↔
      Word.IsSigned literal.fraction.length ∧ literal.scale.natAbs ≤ maxScale ∧
        s = literal.scale := by
  simp only [scale?, Option.bind_eq_some_iff, Word.signed?_eq_some_iff]
  constructor
  · rintro ⟨places, ⟨hplaces, rfl⟩, _, ⟨-, rfl⟩, hbound⟩
    split at hbound
    · rename_i hscale
      exact ⟨hplaces, hscale, (Option.some.inj hbound).symm⟩
    · cases hbound
  · rintro ⟨hplaces, hscale, rfl⟩
    have hword : Word.IsSigned literal.scale := by
      unfold maxScale at hscale
      constructor <;> omega
    exact ⟨_, ⟨hplaces, rfl⟩, literal.scale, ⟨hword, rfl⟩, if_pos hscale⟩

/-- The screen in front of the reader changes nothing, since the reader takes spellings only. -/
theorem parseChars_eq_ok_iff_read :
    Number.parseChars text = .ok n ↔ (read? text).bind value? = some n := by
  unfold Number.parseChars
  split
  · cases (read? text).bind value? <;> simp
  · rename_i hscreen
    refine iff_of_false (by simp) fun hread => hscreen ?_
    obtain ⟨literal, hread, -⟩ := Option.bind_eq_some_iff.mp hread
    exact all_isConstituent (read?_eq_some_iff.mp hread).1

theorem parseChars_eq_ok_iff :
    Number.parseChars text = .ok n ↔
      ∃ literal, Spells text literal ∧ literal.FitsWords ∧ literal.scale.natAbs ≤ maxScale ∧
        n = literal.value := by
  rw [parseChars_eq_ok_iff_read]
  simp only [Option.bind_eq_some_iff, read?_eq_some_iff, value?, Option.map_eq_some_iff,
    scale?_eq_some_iff, Number.scaled_eq]
  constructor
  · rintro ⟨literal, ⟨hspells, hexponent⟩, _, ⟨hplaces, hscale, rfl⟩, rfl⟩
    exact ⟨literal, hspells, ⟨hexponent, hplaces⟩, hscale, rfl⟩
  · rintro ⟨literal, hspells, ⟨hexponent, hplaces⟩, hscale, rfl⟩
    exact ⟨literal, ⟨hspells, hexponent⟩, literal.scale, ⟨hplaces, hscale, rfl⟩, rfl⟩

theorem parseChars_eq_error {cause : NumberError} (herror : Number.parseChars text = .error cause) :
    cause = .invalidSyntax := by
  unfold Number.parseChars at herror
  split at herror
  · split at herror
    · cases herror
    · exact (Except.error.inj herror).symm
  · exact (Except.error.inj herror).symm

theorem length_fraction_le (hspells : Spells text literal) :
    literal.fraction.length ≤ text.length := by
  obtain ⟨mantissa, exponentText, hmantissa, -, rfl⟩ := hspells
  have hlength : literal.fraction.length ≤ mantissa.length := by
    generalize literal.whole = whole at hmantissa
    generalize literal.fraction = fraction at *
    cases hmantissa <;> simp
    omega
  simp only [List.length_append]
  omega

/-- In a text that words can count, what a scale within the bound is computed from are words. -/
theorem fitsWords_of_spells (hspells : Spells text literal)
    (hlength : text.length < 0x4000000000000000) (hscale : literal.scale.natAbs ≤ maxScale) :
    literal.FitsWords := by
  have hfraction := length_fraction_le hspells
  unfold scale maxScale at hscale
  constructor <;> constructor <;> omega

/-- A text below `2 ^ 62` bytes is read as a number exactly if it spells a literal whose scale is
within the bound, and then as the number that the literal denotes; every other text is refused as
invalid. Computing the scale in words gives what computing it in integers does. -/
theorem parse_eq_ok_iff_spells {text : String} (hsize : text.utf8ByteSize < 0x4000000000000000) :
    (∀ n, Number.parse text = .ok n ↔
      ∃ literal, Spells text.toList literal ∧ literal.scale.natAbs ≤ maxScale ∧
        n = literal.value) ∧
    ((¬∃ literal, Spells text.toList literal ∧ literal.scale.natAbs ≤ maxScale) →
      Number.parse text = .error .invalidSyntax) ∧
    ∀ literal, Spells text.toList literal →
      (read? text.toList).bind scale? =
        if literal.scale.natAbs ≤ maxScale then some literal.scale else none := by
  have hlength : text.toList.length < 0x4000000000000000 :=
    Nat.lt_of_le_of_lt (Text.length_toList_le text) hsize
  have hparse (n : Number) : Number.parse text = .ok n ↔
      ∃ literal, Spells text.toList literal ∧ literal.scale.natAbs ≤ maxScale ∧
        n = literal.value := by
    rw [Number.parse, parseChars_eq_ok_iff]
    constructor
    · rintro ⟨literal, hspells, -, hvalue⟩
      exact ⟨literal, hspells, hvalue⟩
    · rintro ⟨literal, hspells, hscale, hvalue⟩
      exact ⟨literal, hspells, fitsWords_of_spells hspells hlength hscale, hscale, hvalue⟩
  refine ⟨hparse, fun hnone => ?_, fun literal hspells => ?_⟩
  · cases hresult : Number.parse text with
    | ok n =>
      obtain ⟨literal, hspells, hscale, -⟩ := (hparse n).mp hresult
      exact absurd ⟨literal, hspells, hscale⟩ hnone
    | error cause => rw [parseChars_eq_error hresult]
  · split
    · rename_i hscale
      obtain ⟨hexponent, hplaces⟩ := fitsWords_of_spells hspells hlength hscale
      rw [read?_eq_some_iff.mpr ⟨hspells, hexponent⟩, Option.bind_some]
      exact scale?_eq_some_iff.mpr ⟨hplaces, hscale, rfl⟩
    · rename_i hscale
      refine Option.eq_none_iff_forall_ne_some.mpr fun s hs => ?_
      obtain ⟨other, hother, hs⟩ := Option.bind_eq_some_iff.mp hs
      obtain rfl := eq_of_spells (read?_eq_some_iff.mp hother).1 hspells
      exact hscale (scale?_eq_some_iff.mp hs).2.1

/-- A sign in front, digits on both sides of the point and a negative exponent. -/
theorem parse_eq_ok_iff_spells_exponent :
    "-12.50e-1".utf8ByteSize < 0x4000000000000000 ∧
      Spells "-12.50e-1".toList ⟨true, ['1', '2'], ['5', '0'], -1⟩ ∧
      Number.parse "-12.50e-1" = .ok (mkRat (-5) 4) := by
  have hsize : "-12.50e-1".utf8ByteSize < 0x4000000000000000 := by decide
  have hspells : Spells "-12.50e-1".toList ⟨true, ['1', '2'], ['5', '0'], -1⟩ := by
    have hmantissa := @SpellsMantissa.pointed ['1', '2'] ['5', '0'] rfl rfl (by simp)
    have hexponent := @SpellsExponent.written 'e' true ['1'] (by simp) rfl (by simp)
    exact ⟨_, _, hmantissa, hexponent, rfl⟩
  refine ⟨hsize, hspells, ((parse_eq_ok_iff_spells hsize).1 _).mpr ⟨_, hspells, ?_, ?_⟩⟩
  · decide
  · have hvalue : (mkRat (-5) 4 : ℚ) = (-1250 : Int) * 10 ^ (-3 : Int) := by
      norm_num [Rat.mkRat_eq_div]
    exact hvalue

end Literal

end LedgerValue

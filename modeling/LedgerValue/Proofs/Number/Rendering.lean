import LedgerValue.Number.Decimal
import LedgerValue.Proofs.Number.Literal
import LedgerValue.Proofs.Text.Digits
import LedgerValue.Reproduction
import Mathlib.Data.Rat.Floor
import Mathlib.Tactic.Linarith
import Mathlib.Tactic.Positivity
import Mathlib.Tactic.Ring

/-!
# What renderings denote

The rendering of a number is the fixed notation of a literal (`isFixed_rendering`), and this literal
denotes the multiple of the last place that is nearest to the number (`isNearest_rendering`). Main
statement: a rendering reads back as that multiple, and so as the number itself exactly when the
number has no further places (`render_reads_nearest`).
-/

namespace LedgerValue

/-- The text gives the digits of a literal in fixed notation: a minus sign or nothing, digits
without superfluous zeros in front, and a point with one digit for each place, unless there is no
place. -/
structure Literal.IsFixed (places : Nat) (text : List Char) (literal : Literal) : Prop where
  /-- Sign, digits and point follow each other. -/
  text_eq : text = Text.minus literal.negative ++
    (literal.whole ++ if places = 0 then [] else '.' :: literal.fraction)
  /-- There are digits before the point. -/
  whole_ne_nil : literal.whole ≠ []
  /-- Nothing else stands there. -/
  whole_digits : Text.allDigits literal.whole = true
  /-- A zero in front is the only digit before the point. -/
  whole_leading : literal.whole.head? = some '0' → literal.whole = ['0']
  /-- Only digits stand after the point. -/
  fraction_digits : Text.allDigits literal.fraction = true
  /-- There are as many of them as places. -/
  fraction_length : literal.fraction.length = places
  /-- No exponent is written. -/
  exponent_eq : literal.exponent = 0

namespace Literal

variable {places : Nat} {text : List Char} {literal : Literal}

theorem IsFixed.scale_eq (hfixed : literal.IsFixed places text) :
    literal.scale = -(places : Int) := by
  rw [scale, hfixed.exponent_eq, hfixed.fraction_length]
  omega

theorem IsFixed.spells (hfixed : literal.IsFixed places text) : Spells text literal := by
  refine ⟨_, [], ?_, hfixed.exponent_eq ▸ .absent, by rw [List.append_nil, hfixed.text_eq]⟩
  split
  · rename_i hplaces
    have hfraction : literal.fraction = [] :=
      List.length_eq_zero_iff.mp (hfixed.fraction_length.trans hplaces)
    rw [hfraction, List.append_nil]
    exact .whole hfixed.whole_digits hfixed.whole_ne_nil
  · exact .pointed hfixed.whole_digits hfixed.fraction_digits (.inl hfixed.whole_ne_nil)

theorem IsFixed.parseChars_eq_ok (hfixed : literal.IsFixed places text)
    (hplaces : places ≤ maxScale) : Number.parseChars text = .ok literal.value := by
  refine parseChars_eq_ok_iff.mpr ⟨literal, hfixed.spells, ⟨?_, ?_⟩, ?_, rfl⟩
  · rw [hfixed.exponent_eq]
    decide
  · rw [hfixed.fraction_length]
    unfold maxScale at hplaces
    constructor <;> omega
  · rw [hfixed.scale_eq]
    omega

end Literal

namespace Number

/-- A multiple of the unit is nearest to a number, and of two that are equally near it is the one
away from zero. -/
structure IsNearest (unit n m : Number) : Prop where
  /-- It is a multiple of the unit. -/
  multiple : ∃ k : Int, m = k * unit
  /-- No multiple is nearer. -/
  nearest : ∀ k : Int, |n - m| ≤ |n - k * unit|
  /-- A multiple that is as near is no farther from zero. -/
  awayFromZero : ∀ k : Int, |n - k * unit| = |n - m| → |k * unit| ≤ |m|

/-- The rounded magnitude of a number, counted in units of the last place. -/
def steps (n : Number) (places : Nat) : Nat :=
  divideRounded (n.num.natAbs * Nat.pow 10 places) n.den

/-- The literal that the rendering of a number spells. -/
def rendering (n : Number) (places : Nat) : Literal :=
  let padded := Text.zeroPadded (places + 1) (Text.digits (n.steps places))
  { negative := n < 0
    whole := padded.take (padded.length - places)
    fraction := padded.drop (padded.length - places)
    exponent := 0 }

variable {unit n m x : Number} {places : Nat}

/-! ## Rounding -/

theorem abs_mul_powerOfTen (n : Number) (places : Nat) :
    |n| * (10 : ℚ) ^ places = ((n.num.natAbs * Nat.pow 10 places : Nat) : ℚ) / n.den := by
  have habs : |n| = (n.num.natAbs : ℚ) / n.den := by
    conv_lhs => rw [← Rat.num_div_den n]
    rw [abs_div, Nat.abs_cast, Nat.cast_natAbs, Int.cast_abs]
  rw [habs, Nat.cast_mul, cast_powerOfTen]
  ring

theorem steps_le (n : Number) (places : Nat) :
    (n.steps places : ℚ) ≤ |n| * (10 : ℚ) ^ places + 1 / 2 := by
  have hden : (0 : ℚ) < n.den := by exact_mod_cast n.den_pos
  have hrounded := two_mul_mul_divideRounded_le (n := n.num.natAbs * Nat.pow 10 places) n.den_pos
  rw [abs_mul_powerOfTen, ← sub_le_iff_le_add, le_div_iff₀ hden, steps]
  generalize divideRounded _ n.den = q at *
  have hcast : (2 : ℚ) * (n.den * q) ≤ 2 * (n.num.natAbs * Nat.pow 10 places : Nat) + n.den := by
    exact_mod_cast hrounded
  linarith

theorem lt_steps (n : Number) (places : Nat) :
    |n| * (10 : ℚ) ^ places < n.steps places + 1 / 2 := by
  have hden : (0 : ℚ) < n.den := by exact_mod_cast n.den_pos
  have hrounded := lt_two_mul_mul_divideRounded (n := n.num.natAbs * Nat.pow 10 places) n.den_pos
  rw [abs_mul_powerOfTen, div_lt_iff₀ hden, steps]
  generalize divideRounded _ n.den = q at *
  have hcast : (2 : ℚ) * (n.num.natAbs * Nat.pow 10 places : Nat) < 2 * (n.den * q) + n.den := by
    exact_mod_cast hrounded
  linarith

/-- A whole number of units of the last place needs no rounding. -/
theorem steps_of_mul_eq {count : Nat}
    (hcount : n.num.natAbs * Nat.pow 10 places = count * n.den) : n.steps places = count := by
  have hquotient : count * n.den / n.den = count := Nat.mul_div_cancel count n.den_pos
  have hremainder : count * n.den % n.den = 0 := Nat.mul_mod_left count n.den
  have hpositive := n.den_pos
  rw [steps, hcount, divideRounded, hquotient, hremainder, if_neg (by omega)]

/-- Within half a unit of a magnitude no other whole number is nearer, and one that is as near is
below. -/
theorem abs_sub_steps_le {q : Nat} (hx : 0 ≤ x) (hlow : (q : ℚ) ≤ x + 1 / 2)
    (hhigh : x < q + 1 / 2) (k : Int) :
    |x - q| ≤ |x - k| ∧ (|x - k| = |x - q| → |k| ≤ q) := by
  have hdistance : |x - q| ≤ 1 / 2 := abs_le.mpr ⟨by linarith, by linarith⟩
  rcases lt_trichotomy k q with hbelow | rfl | habove
  · have hcast : (k : ℚ) + 1 ≤ q := by exact_mod_cast hbelow
    refine ⟨hdistance.trans (le_trans (by linarith) (le_abs_self _)), fun htie => ?_⟩
    have hnear : x - k ≤ 1 / 2 := (le_abs_self _).trans (htie.trans_le hdistance)
    have hnonneg : (-1 : ℚ) < k := by linarith
    have hnonneg : -1 < k := by exact_mod_cast hnonneg
    rw [abs_of_nonneg (by omega)]
    exact hbelow.le
  · exact ⟨le_refl _, fun _ => by rw [abs_of_nonneg (Int.natCast_nonneg q)]⟩
  · have hcast : (q : ℚ) + 1 ≤ k := by exact_mod_cast habove
    have hfar : 1 / 2 < |x - k| := by
      rw [abs_sub_comm]
      exact lt_of_lt_of_le (by linarith) (le_abs_self _)
    exact ⟨hdistance.trans hfar.le, fun htie => absurd (htie ▸ hfar) hdistance.not_gt⟩

/-- The whole number on the side of zero on which a number is, if it is not negative itself. -/
def mirrored (n : Number) (k : Int) : Int := if n < 0 then -k else k

@[simp]
theorem mirrored_mirrored (n : Number) (k : Int) : n.mirrored (n.mirrored k) = k := by
  unfold mirrored
  split <;> simp

@[simp]
theorem abs_mirrored (n : Number) (k : Int) : |n.mirrored k| = |k| := by
  unfold mirrored
  split <;> simp

/-- On either side of zero the distances are those of the magnitudes. -/
theorem abs_sub_mirrored (hunit : 0 < unit) (n : Number) (k : Int) :
    |n - n.mirrored k * unit| = |(|n| / unit - k)| * unit := by
  have hdistance : (|n| / unit - k) * unit = |n| - k * unit := by
    rw [sub_mul, div_mul_cancel₀ _ hunit.ne']
  rw [← abs_of_pos hunit, ← abs_mul, abs_of_pos hunit, hdistance, mirrored]
  split
  · rename_i hnegative
    rw [abs_of_neg hnegative, ← abs_neg, Int.cast_neg]
    congr 1
    ring
  · rename_i hnonneg
    rw [abs_of_nonneg (not_lt.mp hnonneg)]

theorem isNearest_mirrored (hunit : 0 < unit) {q : Nat} (hlow : (q : ℚ) ≤ |n| / unit + 1 / 2)
    (hhigh : |n| / unit < q + 1 / 2) : IsNearest unit n (n.mirrored q * unit) := by
  have hmagnitude : 0 ≤ |n| / unit := div_nonneg (abs_nonneg n) hunit.le
  have hsteps := abs_sub_steps_le hmagnitude hlow hhigh
  have hdistance := abs_sub_mirrored hunit n q
  rw [Int.cast_natCast] at hdistance
  refine ⟨⟨n.mirrored q, rfl⟩, fun k => ?_, fun k htie => ?_⟩
  · rw [hdistance, ← mirrored_mirrored n k, abs_sub_mirrored hunit]
    exact mul_le_mul_of_nonneg_right (hsteps _).1 hunit.le
  · rw [hdistance, ← mirrored_mirrored n k, abs_sub_mirrored hunit] at htie
    have hbelow := (hsteps _).2 (mul_right_cancel₀ hunit.ne' htie)
    rw [abs_mirrored] at hbelow
    have hcast : (|k| : ℚ) ≤ |(n.mirrored q : ℚ)| := by
      rw [← Int.cast_abs, ← Int.cast_abs, abs_mirrored]
      exact_mod_cast hbelow
    rw [abs_mul, abs_mul]
    exact mul_le_mul_of_nonneg_right hcast (abs_nonneg unit)

/-- A number is within half a unit of the nearest multiple. -/
theorem abs_sub_le_of_isNearest (hunit : 0 < unit) (hnearest : IsNearest unit n m) :
    |n - m| ≤ unit / 2 := by
  have hround : n - round (n / unit) * unit = (n / unit - round (n / unit)) * unit := by
    rw [sub_mul, div_mul_cancel₀ _ hunit.ne']
  calc
    |n - m| ≤ |n - round (n / unit) * unit| := hnearest.nearest _
    _ = |n / unit - round (n / unit)| * unit := by rw [hround, abs_mul, abs_of_pos hunit]
    _ ≤ 1 / 2 * unit := mul_le_mul_of_nonneg_right (abs_sub_round _) hunit.le
    _ = unit / 2 := by ring

/-- A multiple of the unit is nearest to itself only. -/
theorem eq_of_isNearest_iff (hnearest : IsNearest unit n m) :
    m = n ↔ ∃ k : Int, n = k * unit := by
  constructor
  · rintro rfl
    exact hnearest.multiple
  · rintro ⟨k, hk⟩
    have hzero := hnearest.nearest k
    rw [← hk, sub_self, abs_zero, abs_nonpos_iff, sub_eq_zero] at hzero
    exact hzero.symm

/-! ## The spelling -/

theorem coefficient_rendering (n : Number) (places : Nat) :
    (n.rendering places).coefficient = n.mirrored (n.steps places) := by
  have hdigits : Text.readDigits ((n.rendering places).whole ++ (n.rendering places).fraction) =
      n.steps places := by
    rw [rendering, List.take_append_drop, Text.readDigits_zeroPadded, Text.readDigits_digits]
  simp only [Literal.coefficient, hdigits]
  simp only [rendering, mirrored, decide_eq_true_eq]

@[simp]
theorem length_fraction_rendering (n : Number) (places : Nat) :
    (n.rendering places).fraction.length = places := by
  have hpadded := Text.length_zeroPadded (places + 1) (Text.digits (n.steps places))
  rw [rendering, List.length_drop]
  omega

/-- With no place the text stays as it is, and otherwise it is filled up and parted by the point. -/
theorem placePoint_eq {ds : List Char} (hne : ds ≠ []) :
    placePoint places ds =
      let padded := Text.zeroPadded (places + 1) ds
      padded.take (padded.length - places) ++
        if places = 0 then [] else '.' :: padded.drop (padded.length - places) := by
  by_cases hplaces : places = 0
  · have hpadded : Text.zeroPadded 1 ds = ds := Text.zeroPadded_of_le (List.length_pos_iff.mpr hne)
    simp [placePoint, hplaces, hpadded]
  · simp [placePoint, hplaces]

/-- The point parts the quotient by a power of ten from the remainder. -/
theorem placePoint_digits (hplaces : 0 < places) (count : Nat) :
    placePoint places (Text.digits count) = Text.digits (count / Nat.pow 10 places) ++
      '.' :: Text.zeroPadded places (Text.digits (count % Nat.pow 10 places)) := by
  have hpower : 0 < Nat.pow 10 places := Nat.pow_pos (by decide)
  have hlength := Text.length_zeroPadded_digits hplaces (Nat.mod_lt count hpower)
  rw [placePoint, if_neg hplaces.ne']
  simp only [Text.zeroPadded_digits_split hplaces, List.length_append, hlength,
    Nat.add_sub_cancel, List.take_left, List.drop_left]

theorem renderChars_eq (n : Number) (places : Nat) :
    n.renderChars places = Text.minus (n < 0) ++ ((n.rendering places).whole ++
      if places = 0 then [] else '.' :: (n.rendering places).fraction) := by
  rw [renderChars, ← steps, placePoint_eq (Text.digits_ne_nil _)]
  by_cases hnegative : n < 0
  · simp [hnegative, Text.minus, rendering]
  · simp [hnegative, Text.minus, rendering]

theorem isFixed_rendering (n : Number) (places : Nat) :
    (n.rendering places).IsFixed places (n.renderChars places) where
  text_eq := renderChars_eq n places
  whole_ne_nil := by
    have hpadded := Text.length_zeroPadded (places + 1) (Text.digits (n.steps places))
    rw [← List.length_pos_iff, rendering, List.length_take]
    omega
  whole_digits := by
    have hpadded := Text.allDigits_zeroPadded (places + 1) (Text.allDigits_digits (n.steps places))
    exact Text.allDigits_of_subset hpadded (List.take_subset _ _)
  whole_leading := Text.take_zeroPadded_of_head? (n.steps places) places
  fraction_digits := by
    have hpadded := Text.allDigits_zeroPadded (places + 1) (Text.allDigits_digits (n.steps places))
    exact Text.allDigits_of_subset hpadded (List.drop_subset _ _)
  fraction_length := length_fraction_rendering n places
  exponent_eq := rfl

theorem isNearest_rendering (n : Number) (places : Nat) :
    IsNearest ((10 : ℚ) ^ (-(places : Int))) n (n.rendering places).value := by
  have hunit : (0 : ℚ) < (10 : ℚ) ^ (-(places : Int)) := zpow_pos (by norm_num) _
  have hmagnitude : |n| / (10 : ℚ) ^ (-(places : Int)) = |n| * (10 : ℚ) ^ places := by
    rw [zpow_neg, zpow_natCast, div_inv_eq_mul]
  have hnearest := isNearest_mirrored (n := n) (q := n.steps places) hunit
    (hmagnitude ▸ steps_le n places) (hmagnitude ▸ lt_steps n places)
  rwa [Literal.value, coefficient_rendering, (isFixed_rendering n places).scale_eq]

/-- A number without further places is what its rendering denotes. -/
theorem value_rendering (hplaces : ∃ k : Int, n * (10 : ℚ) ^ places = k) :
    (n.rendering places).value = n := by
  obtain ⟨k, hk⟩ := hplaces
  refine (eq_of_isNearest_iff (isNearest_rendering n places)).mpr ⟨k, ?_⟩
  rw [zpow_neg, zpow_natCast, ← div_eq_mul_inv, eq_div_iff (by positivity), hk]

/-- Numbers without further places are told apart by their renderings. -/
theorem eq_of_renderChars_eq (hn : ∃ k : Int, n * (10 : ℚ) ^ places = k)
    (hm : ∃ k : Int, m * (10 : ℚ) ^ places = k)
    (hsame : n.renderChars places = m.renderChars places) : n = m := by
  have hspells := (isFixed_rendering n places).spells
  rw [hsame] at hspells
  rw [← value_rendering hn, Literal.eq_of_spells hspells (isFixed_rendering m places).spells,
    value_rendering hm]

/-- Nothing in a literal is escaped between quotes. -/
theorem quotedChar_of_spells {text : List Char} {literal : Literal} {c : Char}
    (hspells : Literal.Spells text literal) (hmem : c ∈ text) : Text.quotedChar c = [c] := by
  rcases Literal.mem_of_spells hspells hmem with hdigit | hmark
  · obtain ⟨hlow, hhigh⟩ := Char.isDigit_iff_toNat.mp hdigit
    exact Text.quotedChar_of_ascii (le_trans (by decide) hlow) (lt_of_le_of_lt hhigh (by decide))
      (Text.ne_of_isDigit hdigit rfl) (Text.ne_of_isDigit hdigit rfl)
  · simp only [List.mem_cons, List.not_mem_nil, or_false] at hmark
    rcases hmark with rfl | rfl | rfl | rfl <;>
      exact Text.quotedChar_of_ascii (by decide) (by decide) (by decide) (by decide)

theorem quotedChars_renderChars (n : Number) (places : Nat) :
    Text.quotedChars (n.renderChars places) = '"' :: n.renderChars places ++ ['"'] := by
  have hplain (text : List Char) (htext : ∀ c ∈ text, Text.quotedChar c = [c]) :
      text.flatMap Text.quotedChar = text := by
    rw [List.flatMap_congr htext, List.flatMap_singleton']
  rw [Text.quotedChars, hplain _ fun _ => quotedChar_of_spells (isFixed_rendering n places).spells]

/-- The reproduction of a number that is no word leaves its rendering to be read. -/
theorem reproduction_eq (n : Number) (hword : n.toWord? = none) :
    n.reproduction = "Number::must_parse(\"" ++ n.render defaultPlaces ++ "\")" := by
  have hzero : n ≠ 0 := by
    rintro rfl
    cases hword
  apply String.toList_inj.mp
  rw [reproduction, String.toList_ofList, Reproduction.ofNumber, if_neg hzero, hword]
  simp only [Reproduction.applied, Reproduction.joined, quotedChars_renderChars,
    String.toList_append, render, String.toList_ofList]
  simp

/-- A rendering is the fixed notation of a literal with a minus sign for negative numbers, which
denotes the multiple of the last place that is nearest to the number, a tie going away from zero. It
is at most half of the last place off, and the number itself exactly if that has no further places.
The rendering reads back as the multiple as long as literals can have so many places. In particular
the text that a reproduction leaves to be read can be read. -/
theorem render_reads_nearest (n : Number) (places : Nat) :
    (∃ literal : Literal, literal.IsFixed places (n.render places).toList ∧
      literal.negative = decide (n < 0) ∧
      IsNearest ((10 : ℚ) ^ (-(places : Int))) n literal.value ∧
      |n - literal.value| ≤ (10 : ℚ) ^ (-(places : Int)) / 2 ∧
      (literal.value = n ↔ ∃ k : Int, n * (10 : ℚ) ^ places = k) ∧
      (places ≤ Literal.maxScale → parse (n.render places) = .ok literal.value)) ∧
    (n.toWord? = none →
      n.reproduction = "Number::must_parse(\"" ++ n.render defaultPlaces ++ "\")" ∧
      ∃ m, parseTrusted (n.render defaultPlaces) = .ok m) := by
  have hfixed (places : Nat) : (n.rendering places).IsFixed places (n.render places).toList := by
    rw [render, String.toList_ofList]
    exact isFixed_rendering n places
  have hreads (places : Nat) (hplaces : places ≤ Literal.maxScale) :
      parse (n.render places) = .ok (n.rendering places).value :=
    (hfixed places).parseChars_eq_ok hplaces
  have hnearest := isNearest_rendering n places
  have hunit : (0 : ℚ) < (10 : ℚ) ^ (-(places : Int)) := zpow_pos (by norm_num) _
  have hmultiple (k : Int) :
      n = k * (10 : ℚ) ^ (-(places : Int)) ↔ n * (10 : ℚ) ^ places = k := by
    rw [zpow_neg, zpow_natCast, ← div_eq_mul_inv, eq_div_iff (by positivity)]
  refine ⟨⟨n.rendering places, hfixed places, rfl, hnearest,
    abs_sub_le_of_isNearest hunit hnearest, ?_, hreads places⟩, fun hword => ?_⟩
  · rw [eq_of_isNearest_iff hnearest]
    exact exists_congr hmultiple
  · refine ⟨reproduction_eq n hword, (n.rendering defaultPlaces).value, ?_⟩
    rw [parseTrusted, hreads defaultPlaces (by decide)]
    rfl

/-- A tie goes away from zero, and the reproduction has enough places for the number itself. -/
theorem render_reads_nearest_eighth :
    let eighth : Number := mkRat (-1) 8
    eighth.render 2 = "-0.13" ∧ 2 ≤ Literal.maxScale ∧ eighth.toWord? = none ∧
      (∃ m, parse "-0.13" = .ok m ∧ IsNearest ((10 : ℚ) ^ (-(2 : Nat) : Int)) eighth m) ∧
      eighth.reproduction = "Number::must_parse(\"-0.12500000000000\")" ∧
      ∃ m, parseTrusted "-0.12500000000000" = .ok m := by
  intro eighth
  have hrender : eighth.render 2 = "-0.13" := by decide +kernel
  have hdefault : eighth.render defaultPlaces = "-0.12500000000000" := by decide +kernel
  have hplaces : 2 ≤ Literal.maxScale := by decide
  have hword : eighth.toWord? = none := by decide +kernel
  obtain ⟨⟨literal, -, -, hnearest, -, -, hparse⟩, hreproduction⟩ :=
    render_reads_nearest eighth 2
  obtain ⟨htext, hread⟩ := hreproduction hword
  rw [hdefault] at htext hread
  exact ⟨hrender, hplaces, hword, ⟨_, hrender ▸ hparse hplaces, hnearest⟩, htext, hread⟩

end Number

end LedgerValue

import LedgerValue.Conversion.Basic
import LedgerValue.Proofs.AssetAmount
import LedgerValue.Proofs.HostNumber.Exact
import LedgerValue.Proofs.Outcome

/-!
# What values denote

Numbers denote themselves, texts the literals that they spell, finite host numbers the product of
their significand and a power of two, and amounts as many ten-millionths as they count. Main
statements: which values can take part in arithmetic (`isNumeric_iff`), and that these convert to
the number that they denote (`convert_of_denotes`).
-/

namespace LedgerValue

/-- The size of a finite host number: its significand times a power of two. Below the first full
binade the significand has no leading one. -/
def HostNumber.magnitude (rank : Nat) : ℚ :=
  let exponent := rank / 0x10000000000000
  let fraction := rank % 0x10000000000000
  if exponent = 0 then fraction * (2 : ℚ) ^ (-1074 : Int)
  else (0x10000000000000 + fraction : Nat) * (2 : ℚ) ^ ((exponent : Int) - 1075)

theorem HostNumber.units_div (rank : Nat) :
    (units rank : ℚ) / unitsPerOne = magnitude rank := by
  have hpower (k : Nat) : ((Nat.pow 2 k : Nat) : ℚ) = (2 : ℚ) ^ k := Nat.cast_pow 2 k
  have hone : (unitsPerOne : ℚ)⁻¹ = (2 : ℚ) ^ (-(1074 : Nat) : Int) := by
    unfold unitsPerOne
    generalize 1074 = exponent
    rw [hpower, zpow_neg, zpow_natCast]
  rw [Nat.cast_ofNat] at hone
  by_cases hsmall : rank < 0x10000000000000
  · rw [magnitude, if_pos (by omega), units, if_pos (by omega), Nat.mod_eq_of_lt hsmall,
      div_eq_mul_inv, hone]
  · obtain ⟨level, fraction, hfraction, rfl⟩ : ∃ level fraction, fraction < 0x10000000000000 ∧
        rank = (level + 1) * 0x10000000000000 + fraction :=
      ⟨rank / 0x10000000000000 - 1, rank % 0x10000000000000, by omega, by omega⟩
    have hdiv : ((level + 1) * 0x10000000000000 + fraction) / 0x10000000000000 = level + 1 := by
      omega
    have hmod : ((level + 1) * 0x10000000000000 + fraction) % 0x10000000000000 = fraction := by
      omega
    have hscale : ((level + 1 : Nat) : Int) - 1075 = (level : Int) + -1074 := by omega
    rw [magnitude, hdiv, if_neg (by omega), hmod, units_of_spacing hfraction, hscale,
      zpow_add₀ two_ne_zero, zpow_natCast, Nat.cast_mul, hpower, div_eq_mul_inv, hone, mul_assoc,
      Nat.add_comm]

namespace Value

/-- The exact value of a number, or of what can be read as one. -/
inductive Denotes : Value → ℚ → Prop
  /-- A number denotes itself. -/
  | number (n : Number) : Denotes (.number n) n
  /-- A text denotes what the literal denotes that it spells. -/
  | string {text : String} {literal : Literal} (hspells : Literal.Spells text.toList literal) :
    Denotes (.string text) literal.value
  /-- A finite host number denotes its size with its sign. -/
  | hostNumber (negative : Bool) (rank : Fin HostNumber.rankCount) :
    Denotes (.hostNumber (.finite negative rank))
      (if negative then -HostNumber.magnitude rank else HostNumber.magnitude rank)
  /-- An amount denotes its count of ten-millionths. -/
  | amount (amount : AssetAmount) : Denotes (.amount amount) (amount.raw.toInt / (10 : ℚ) ^ 7)

/-- A payload that can take part in arithmetic. -/
def IsNumeric (value : Value) : Prop :=
  value.hasPayload = true ∧ ∃ converted, convert value .number = .ok converted

variable {value : Value} {q r : ℚ}

theorem denotes_unique (hq : value.Denotes q) (hr : value.Denotes r) : q = r := by
  cases hq with
  | number => cases hr; rfl
  | hostNumber => cases hr; rfl
  | amount => cases hr; rfl
  | string hspells =>
    cases hr with
    | string hother => rw [Literal.eq_of_spells hspells hother]

theorem denotes_of_toNumber {x : HostNumber} {n : Number} (hn : x.toNumber = .ok n) :
    (Value.hostNumber x).Denotes n := by
  cases x with
  | nan => cases hn
  | infinity => cases hn
  | finite negative rank =>
    have hvalue :
        n = if negative then -HostNumber.magnitude rank else HostNumber.magnitude rank := by
      rw [← Except.ok.inj hn, Rat.mkRat_eq_div, ← HostNumber.units_div]
      cases negative with
      | false => rfl
      | true =>
        rw [if_pos rfl, if_pos rfl, Int.cast_neg, neg_div]
        rfl
    rw [hvalue]
    exact .hostNumber negative rank

theorem denotes_amount (amount : AssetAmount) :
    (Value.amount amount).Denotes amount.toNumber := by
  rw [AssetAmount.toNumber_eq]
  exact .amount amount

theorem denotes_of_parse {text : String} {n : Number} (hn : Number.parse text = .ok n) :
    (Value.string text).Denotes n := by
  obtain ⟨literal, hspells, -, -, rfl⟩ := Literal.parseChars_eq_ok_iff.mp hn
  exact .string hspells

theorem convert_string_of_parse {text : String} {n : Number} (hn : Number.parse text = .ok n) :
    convert (.string text) .number = .ok (.number n) := by
  change ((Number.parse text).mapError _).map Value.number = _
  rw [hn]
  rfl

/-- Numbers, finite host numbers, texts that are read as numbers and amounts can take part in
arithmetic, and nothing else. -/
theorem isNumeric_iff :
    value.IsNumeric ↔ (∃ n, value = .number n) ∨
      (∃ negative rank, value = .hostNumber (.finite negative rank)) ∨
      (∃ text n, value = .string text ∧ Number.parse text = .ok n) ∨
      ∃ amount, value = .amount amount := by
  constructor
  · rintro ⟨hpayload, converted, hconvert⟩
    cases value
    case null | unknown => cases hpayload
    case number n => exact .inl ⟨n, rfl⟩
    case hostNumber x =>
      cases x with
      | nan => cases hconvert
      | infinity => cases hconvert
      | finite negative rank => exact .inr (.inl ⟨negative, rank, rfl⟩)
    case string text =>
      obtain ⟨n, hn, -⟩ := map_eq_ok_iff.mp hconvert
      exact .inr (.inr (.inl ⟨text, n, rfl, mapError_eq_ok_iff.mp hn⟩))
    case amount amount => exact .inr (.inr (.inr ⟨amount, rfl⟩))
    all_goals cases hconvert
  · rintro (⟨n, rfl⟩ | ⟨negative, rank, rfl⟩ | ⟨text, n, rfl, hn⟩ | ⟨amount, rfl⟩)
    · exact ⟨rfl, _, convert_of_ty_eq rfl⟩
    · exact ⟨rfl, _, rfl⟩
    · exact ⟨rfl, _, convert_string_of_parse hn⟩
    · exact ⟨rfl, _, rfl⟩

/-- What can take part in arithmetic converts to the number that it denotes. -/
theorem exists_denotes (hnumeric : value.IsNumeric) :
    ∃ q, value.Denotes q ∧ convert value .number = .ok (.number q) := by
  rcases isNumeric_iff.mp hnumeric with
    ⟨n, rfl⟩ | ⟨negative, rank, rfl⟩ | ⟨text, n, rfl, hn⟩ | ⟨amount, rfl⟩
  · exact ⟨n, .number n, convert_of_ty_eq rfl⟩
  · exact ⟨_, denotes_of_toNumber rfl, rfl⟩
  · exact ⟨n, denotes_of_parse hn, convert_string_of_parse hn⟩
  · exact ⟨_, denotes_amount amount, rfl⟩

theorem convert_of_denotes (hnumeric : value.IsNumeric) (hdenotes : value.Denotes q) :
    convert value .number = .ok (.number q) := by
  obtain ⟨r, hr, hconvert⟩ := exists_denotes hnumeric
  rwa [denotes_unique hdenotes hr]

theorem isNumeric_number (n : Number) : (Value.number n).IsNumeric :=
  isNumeric_iff.mpr (.inl ⟨n, rfl⟩)

end Value

end LedgerValue

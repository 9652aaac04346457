import LedgerValue.Proofs.Value.Equality
import LedgerValue.Proofs.Value.Part
import LedgerValue.Proofs.Conversion.Leads

/-!
# Raw equality part by part

Raw equal values have raw equal parts wherever a path leads (`rel_at?_of_rawEqual`). Collections of
one type are raw equal if all their direct parts are (`rawEqual_of_parts`).
-/

namespace LedgerValue

namespace Value

variable {value other : Value}

theorem rel_part?_of_rawEqual (hequal : value.rawEqual other = true) (step : Step) :
    Option.Rel (fun part part' => part.rawEqual part' = true) (value.part? step)
      (other.part? step) := by
  cases value <;> cases other <;> simp only [rawEqual, Bool.false_eq_true, Bool.and_eq_true,
    rawEqualItems_iff, rawEqualEntries_iff] at hequal
  case list.list =>
    cases step with
    | position index => exact rel_getElem? hequal.2 index
    | key name | member name => exact .none
  case tuple.tuple =>
    cases step with
    | position index => exact rel_getElem? hequal index
    | key name | member name => exact .none
  case map.map =>
    cases step with
    | position index => exact .none
    | key name | member name => exact rel_lookup hequal.2 name
  case object.object =>
    cases step with
    | position index => exact .none
    | key name | member name => exact rel_lookup hequal name
  all_goals exact .none

theorem rel_at?_of_rawEqual (hequal : value.rawEqual other = true) (path : Path) :
    Option.Rel (fun part part' => part.rawEqual part' = true) (value.at? path)
      (other.at? path) := by
  induction path generalizing value other with
  | nil => exact .some hequal
  | cons step path ih =>
    have hstep := rel_part?_of_rawEqual hequal step
    rw [at?, at?]
    generalize value.part? step = part at hstep ⊢
    generalize other.part? step = part' at hstep ⊢
    cases hstep with
    | some hpart => exact ih hpart
    | none => exact .none

/-- Payloads of one type that is not a scalar one are raw equal if their direct parts are. -/
theorem rawEqual_of_parts (hvalue : value.WellFormed) (hother : other.WellFormed)
    (hty : value.ty = other.ty) (hscalar : ¬value.ty.IsScalar) (hpayload : value.hasPayload = true)
    (hpayload' : other.hasPayload = true)
    (hparts : ∀ step, Option.Rel (fun part part' => part.rawEqual part' = true) (value.part? step)
      (other.part? step)) : value.rawEqual other = true := by
  cases value <;> simp only [hasPayload, Bool.false_eq_true] at hpayload <;>
    simp only [ty, Ty.IsScalar, not_true_eq_false] at hscalar <;>
    cases other <;> simp only [hasPayload, Bool.false_eq_true] at hpayload' <;>
    simp only [ty, reduceCtorEq] at hty
  case list.list =>
    obtain rfl := Ty.list.inj hty
    simp only [rawEqual, decide_true, Bool.true_and, rawEqualItems_iff]
    exact forall₂_of_rel_getElem? fun position => hparts (.position position)
  case map.map =>
    obtain rfl := Ty.map.inj hty
    simp only [rawEqual, decide_true, Bool.true_and, rawEqualEntries_iff]
    exact Record.forall₂_of_rel_lookup hvalue.2.2.1 hother.2.2.1 fun name => hparts (.key name)
  case tuple.tuple =>
    simp only [rawEqual, rawEqualItems_iff]
    exact forall₂_of_rel_getElem? fun position => hparts (.position position)
  case object.object =>
    simp only [rawEqual, rawEqualEntries_iff]
    exact Record.forall₂_of_rel_lookup hvalue.1 hother.1 fun name => hparts (.member name)

end Value

end LedgerValue

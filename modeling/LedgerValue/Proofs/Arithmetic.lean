import LedgerValue.Arithmetic
import LedgerValue.Proofs.Conversion.Refinement

/-!
# Arithmetic on approximations

An operation has an exact number or an unknown number for its result (`ty_of_onValues`). Main
statement: an operation on approximations covers the operation on what refines them
(`covers_onValues`).
-/

namespace LedgerValue.Operation

variable {operation : Operation} {value approximation left right result : Value}
  {x x' y y' : Option Number}

/-- The result for two numbers that may not be known. -/
def combine (operation : Operation) : Option Number → Option Number → Except OperatorError Value
  | some x, some y => ((operation.onNumbers x y).mapError .arithmetic).map .number
  | _, _ => .ok (.unknown .number)

theorem onValues_eq (operation : Operation) (left right : Value) :
    operation.onValues left right =
      (operand 0 left).bind fun x => (operand 1 right).bind fun y => operation.combine x y := by
  rfl

theorem ty_of_combine (hresult : operation.combine x y = .ok result) :
    result.WellFormed ∧ result.ty = .number := by
  rw [combine.eq_def] at hresult
  split at hresult
  · obtain ⟨n, -, rfl⟩ := map_eq_ok_iff.mp hresult
    exact ⟨trivial, rfl⟩
  · obtain rfl := Except.ok.inj hresult
    exact ⟨trivial, rfl⟩

theorem ty_of_onValues (hresult : operation.onValues left right = .ok result) :
    result.WellFormed ∧ result.ty = .number := by
  rw [onValues_eq] at hresult
  obtain ⟨x, -, hresult⟩ := bind_eq_ok_iff.mp hresult
  obtain ⟨y, -, hresult⟩ := bind_eq_ok_iff.mp hresult
  exact ty_of_combine hresult

theorem operand_of_ty_ne_dynamic (position : Nat) (hnull : value.isNull = false)
    (hty : value.ty ≠ .dynamic) :
    operand position value =
      ((convert value .number).mapError (.argument position)).map Value.number? := by
  rw [operand, if_neg (by simp [hnull]), if_neg (Ty.isDynamic_iff.not.mpr hty)]

theorem covers_operand (position : Nat) (hvalue : value.Refines approximation)
    (happroximation : approximation.WellFormed) :
    Covers (fun x' x => x = none ∨ x' = x) (operand position value)
      (operand position approximation) := by
  cases hnull : value.isNull with
  | true => exact covers_of_error (by rw [operand, if_pos hnull])
  | false =>
  have hnull' := Value.isNull_of_fills hvalue.2 hnull
  by_cases hty : approximation.ty = .dynamic
  · have happroximate : operand position approximation = .ok none := by
      rw [operand, if_neg (by simp [hnull']), if_pos (Ty.isDynamic_iff.mpr hty)]
    exact covers_of_ok happroximate fun _ _ => Or.inl rfl
  · have hconforms := Value.conforms_of_fills hvalue.1 happroximation hvalue.2
    rw [operand_of_ty_ne_dynamic position hnull (Ty.not_dynamic_of_conforms hconforms hty),
      operand_of_ty_ne_dynamic position hnull' hty]
    refine covers_map (covers_mapError
      (Conversion.covers_convert_scalar trivial hvalue.1 happroximation hty hvalue.2)) ?_
    rintro converted approximate (hpayload | rfl)
    · left
      cases approximate <;> first | rfl | cases hpayload
    · exact Or.inr rfl

theorem covers_combine (hx : x = none ∨ x' = x) (hy : y = none ∨ y' = y) :
    Covers Value.Refines (operation.combine x' y') (operation.combine x y) := by
  have hunknown : operation.combine x y = .ok (.unknown .number) →
      Covers Value.Refines (operation.combine x' y') (operation.combine x y) := by
    refine fun happroximation => covers_of_ok happroximation fun result hresult => ?_
    obtain ⟨hwellFormed, hty⟩ := ty_of_combine hresult
    exact Value.refines_unknown_iff.mpr ⟨hwellFormed, hty ▸ Ty.conforms_refl _⟩
  rcases hx with rfl | rfl
  · exact hunknown rfl
  rcases hy with rfl | rfl
  · exact hunknown (by cases x' <;> rfl)
  exact covers_refl fun result hresult => Value.refines_refl (ty_of_combine hresult).1

/-- An operation on what refines the operands is covered: its result refines the result, and where
there is none for the approximations there is none at all. -/
theorem covers_onValues {approximateLeft approximateRight : Value}
    (hleft : left.Refines approximateLeft) (happroximateLeft : approximateLeft.WellFormed)
    (hright : right.Refines approximateRight) (happroximateRight : approximateRight.WellFormed) :
    Covers Value.Refines (operation.onValues left right)
      (operation.onValues approximateLeft approximateRight) := by
  rw [onValues_eq, onValues_eq]
  refine covers_bind (covers_operand 0 hleft happroximateLeft) fun x' x hx => ?_
  refine covers_bind (covers_operand 1 hright happroximateRight) fun y' y hy => ?_
  exact covers_combine hx hy

end LedgerValue.Operation

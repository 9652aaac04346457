import LedgerValue.Expression
import LedgerValue.Proofs.Arithmetic
import LedgerValue.Proofs.Indexing

/-!
# Expressions over approximations

An expression may be evaluated before all of its leaves are known. The value that comes out is
refined by the value for every refinement of the leaves, and an expression without conversions that
fails early fails for each of them. Main statement: `evaluate_refines`.
-/

namespace LedgerValue.Expression

/-- The first expression has the shape of the second, with leaves that refine its leaves. -/
inductive Refines : Expression → Expression → Prop
  /-- A value that refines another. -/
  | leaf {value approximation : Value} (hvalue : value.Refines approximation) :
    Refines (.leaf value) (.leaf approximation)
  /-- Both the collection and the key refine. -/
  | index {collection approximation key approximateKey : Expression}
    (hcollection : Refines collection approximation) (hkey : Refines key approximateKey) :
    Refines (.index collection key) (.index approximation approximateKey)
  /-- Both operands of the same operation refine. -/
  | arithmetic {operation : Operation} {left approximateLeft right approximateRight : Expression}
    (hleft : Refines left approximateLeft) (hright : Refines right approximateRight) :
    Refines (.arithmetic operation left right)
      (.arithmetic operation approximateLeft approximateRight)
  /-- The operand of a conversion to the same type refines. -/
  | convert {operand approximation : Expression} {target : Ty}
    (hoperand : Refines operand approximation) :
    Refines (.convert operand target) (.convert approximation target)

/-- The values at the leaves and the types of the conversions are well formed. -/
def WellFormed : Expression → Prop
  | leaf value => value.WellFormed
  | index collection key => collection.WellFormed ∧ key.WellFormed
  | arithmetic _ left right => left.WellFormed ∧ right.WellFormed
  | convert operand target => operand.WellFormed ∧ target.WellFormed

/-- No conversion is asked for. -/
def isConversionFree : Expression → Bool
  | leaf _ => true
  | index collection key => collection.isConversionFree && key.isConversionFree
  | arithmetic _ left right => left.isConversionFree && right.isConversionFree
  | convert _ _ => false

variable {expression refined approximation : Expression} {value : Value}

theorem wellFormed_of_evaluate (hexpression : expression.WellFormed)
    (hvalue : expression.evaluate = .ok value) : value.WellFormed := by
  induction expression generalizing value with
  | leaf =>
    obtain rfl := Except.ok.inj hvalue
    exact hexpression
  | index collection key ihCollection _ =>
    obtain ⟨_, hcollection, hvalue⟩ := bind_eq_ok_iff.mp hvalue
    obtain ⟨_, -, hvalue⟩ := bind_eq_ok_iff.mp hvalue
    have hcollection := ihCollection hexpression.1 hcollection
    exact wellFormed_of_index hcollection (mapError_eq_ok_iff.mp hvalue)
  | arithmetic operation left right =>
    obtain ⟨_, -, hvalue⟩ := bind_eq_ok_iff.mp hvalue
    obtain ⟨_, -, hvalue⟩ := bind_eq_ok_iff.mp hvalue
    exact (Operation.ty_of_onValues (mapError_eq_ok_iff.mp hvalue)).1
  | convert operand target ih =>
    obtain ⟨_, hoperand, hvalue⟩ := bind_eq_ok_iff.mp hvalue
    exact (Conversion.settled_of_convert hexpression.2 (ih hexpression.1 hoperand)
      (mapError_eq_ok_iff.mp hvalue)).wellFormed

theorem agree_evaluate (hrefines : refined.Refines approximation)
    (happroximation : approximation.WellFormed) :
    Agree Value.Refines refined.evaluate approximation.evaluate := by
  induction hrefines with
  | leaf hvalue => exact (covers_ok hvalue).agree
  | index _ _ ihCollection ihKey =>
    refine agree_bind (agree_and (ihCollection happroximation.1) fun _ =>
      wellFormed_of_evaluate happroximation.1) fun _ _ hcollection => ?_
    refine agree_bind (agree_and (ihKey happroximation.2) fun _ =>
      wellFormed_of_evaluate happroximation.2) fun _ _ hkey => ?_
    exact agree_mapError (covers_index hcollection.1 hcollection.2 hkey.1 hkey.2).agree
  | arithmetic _ _ ihLeft ihRight =>
    refine agree_bind (agree_and (ihLeft happroximation.1) fun _ =>
      wellFormed_of_evaluate happroximation.1) fun _ _ hleft => ?_
    refine agree_bind (agree_and (ihRight happroximation.2) fun _ =>
      wellFormed_of_evaluate happroximation.2) fun _ _ hright => ?_
    exact agree_mapError (Operation.covers_onValues hleft.1 hleft.2 hright.1 hright.2).agree
  | convert _ ih =>
    refine agree_bind (agree_and (ih happroximation.1) fun _ =>
      wellFormed_of_evaluate happroximation.1) fun _ _ hoperand => ?_
    exact agree_mapError (Conversion.agree_convert hoperand.1 hoperand.2 happroximation.2)

theorem covers_evaluate (hrefines : refined.Refines approximation)
    (happroximation : approximation.WellFormed) (hfree : approximation.isConversionFree = true) :
    Covers Value.Refines refined.evaluate approximation.evaluate := by
  induction hrefines with
  | leaf hvalue => exact covers_ok hvalue
  | index _ _ ihCollection ihKey =>
    rw [isConversionFree, Bool.and_eq_true] at hfree
    refine covers_bind (covers_and (ihCollection happroximation.1 hfree.1) fun _ =>
      wellFormed_of_evaluate happroximation.1) fun _ _ hcollection => ?_
    refine covers_bind (covers_and (ihKey happroximation.2 hfree.2) fun _ =>
      wellFormed_of_evaluate happroximation.2) fun _ _ hkey => ?_
    exact covers_mapError (covers_index hcollection.1 hcollection.2 hkey.1 hkey.2)
  | arithmetic _ _ ihLeft ihRight =>
    rw [isConversionFree, Bool.and_eq_true] at hfree
    refine covers_bind (covers_and (ihLeft happroximation.1 hfree.1) fun _ =>
      wellFormed_of_evaluate happroximation.1) fun _ _ hleft => ?_
    refine covers_bind (covers_and (ihRight happroximation.2 hfree.2) fun _ =>
      wellFormed_of_evaluate happroximation.2) fun _ _ hright => ?_
    exact covers_mapError (Operation.covers_onValues hleft.1 hleft.2 hright.1 hright.2)
  | convert => cases hfree

/-- What comes out for refined leaves refines what comes out for the leaves, and is the same where
nothing in that is unknown. Without conversions a failure for the leaves is one for all refined
leaves. -/
theorem evaluate_refines (hrefines : refined.Refines approximation)
    (happroximation : approximation.WellFormed) :
    (∀ value approximate, refined.evaluate = .ok value → approximation.evaluate = .ok approximate →
      value.Refines approximate ∧ (approximate.isConcrete = true → value = approximate)) ∧
    (approximation.isConversionFree = true → ∀ error, approximation.evaluate = .error error →
      ∃ error', refined.evaluate = .error error') := by
  refine ⟨fun value approximate hvalue happroximate => ?_, fun hfree => ?_⟩
  · have hvalue := agree_evaluate hrefines happroximation value approximate hvalue happroximate
    exact ⟨hvalue, Value.eq_of_refines hvalue (wellFormed_of_evaluate happroximation happroximate)⟩
  · exact (covers_evaluate hrefines happroximation hfree).fails

/-- Which item of a list with an unknown item comes out is not known before the key is. -/
theorem evaluate_refines_unknownKey :
    let approximation :=
      index (leaf (.list .string [.unknown .string, .string "b"])) (leaf (.unknown .number))
    let refined := index (leaf (.list .string [.string "a", .string "b"])) (leaf (.number 0))
    approximation.WellFormed ∧ refined.Refines approximation ∧
      approximation.evaluate = .ok (.unknown .string) ∧ refined.evaluate = .ok (.string "a") ∧
      (Value.string "a").Refines (.unknown .string) := by
  intro approximation refined
  have happroximation : approximation.WellFormed := by
    simp [approximation, WellFormed, Value.WellFormed, Value.ItemsWellFormed, Ty.WellFormed,
      Value.ty]
  have hcollection : (Value.list .string [.string "a", .string "b"]).Refines
      (.list .string [.unknown .string, .string "b"]) := by
    simp [Value.Refines, Value.Fills, Value.ItemsFill, Value.WellFormed, Value.ItemsWellFormed,
      Ty.WellFormed, Value.ty, Ty.Conforms]
  have hkey : (Value.number 0).Refines (.unknown .number) :=
    Value.refines_unknown_iff.mpr ⟨trivial, Ty.conforms_refl _⟩
  have hrefines : refined.Refines approximation := .index (.leaf hcollection) (.leaf hkey)
  have hresult : refined.evaluate = .ok (.string "a") := by rfl
  obtain ⟨hvalue, -⟩ := (evaluate_refines hrefines happroximation).1 _ _ hresult rfl
  exact ⟨happroximation, hrefines, rfl, hresult, hvalue⟩

end LedgerValue.Expression

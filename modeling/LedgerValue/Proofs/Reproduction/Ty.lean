import LedgerValue.Proofs.Induction
import LedgerValue.Proofs.Reproduction.Expression

/-!
# Types told by their reproductions

The reproduction of a type is a name that tells how the type is built, applied to what it is built
from (`ofTy_eq_spelled`). Main statement: no two types have the same reproduction (`eq_of_ofTy_eq`).
-/

namespace LedgerValue.Reproduction

/-- The name in front of the reproduction of a type. -/
def nameOfTy : Ty → String
  | .string => "Type::String"
  | .bool => "Type::Bool"
  | .hostNumber => "Type::HostNumber"
  | .dynamic => "Type::Dynamic"
  | .list _ => "Type::list"
  | .map _ => "Type::map"
  | .tuple _ => "Type::tuple"
  | .object _ => "Type::object"
  | .capsule .number => "Type::NUMBER"
  | .capsule .assetAmount => "Type::ASSET_AMOUNT"
  | .capsule (.foreign _) => "Type::opaque"

/-- What the name is applied to, if the type is built from something. -/
def argumentsOfTy : Ty → Option (List (List Char))
  | .list element => some [ofTy element]
  | .map element => some [ofTy element]
  | .tuple elements => some [sequence (ofElements elements)]
  | .object attributes => some [table (ofTyAttributes attributes)]
  | .capsule (.foreign name) => some [quoted name]
  | _ => none

/-- Both types are built in the same way, if not from the same. -/
inductive SameForm : Ty → Ty → Prop
  | string : SameForm .string .string
  | bool : SameForm .bool .bool
  | hostNumber : SameForm .hostNumber .hostNumber
  | dynamic : SameForm .dynamic .dynamic
  | list (element other : Ty) : SameForm (.list element) (.list other)
  | map (element other : Ty) : SameForm (.map element) (.map other)
  | tuple (elements others : List Ty) : SameForm (.tuple elements) (.tuple others)
  | object (attributes others : List (String × Ty)) : SameForm (.object attributes) (.object others)
  | number : SameForm .number .number
  | assetAmount : SameForm .assetAmount .assetAmount
  | foreign (name other : String) :
    SameForm (.capsule (.foreign name)) (.capsule (.foreign other))

variable {ty other : Ty}

@[simp]
theorem ofElements_eq_map (elements : List Ty) : ofElements elements = elements.map ofTy := by
  induction elements with
  | nil => rfl
  | cons element rest ih => rw [ofElements, ih, List.map_cons]

@[simp]
theorem ofTyAttributes_eq_pairs (attributes : List (String × Ty)) :
    ofTyAttributes attributes = pairs quoted ofTy attributes := by
  induction attributes with
  | nil => rfl
  | cons entry rest ih => rw [ofTyAttributes, ih, pairs, pairs, List.map_cons]

theorem ofTy_eq_spelled (ty : Ty) : ofTy ty = spelled (nameOfTy ty) (argumentsOfTy ty) := by
  rw [ofTy.eq_def]
  cases ty with
  | capsule kind => cases kind <;> rfl
  | _ => rfl

theorem isPlain_nameOfTy (ty : Ty) : IsPlain (nameOfTy ty).toList := by
  unfold nameOfTy
  split <;> decide

theorem nameOfTy_ne_nil (ty : Ty) : (nameOfTy ty).toList ≠ [] := by
  unfold nameOfTy
  split <;> decide

theorem isExpression_of_holdsExpressions (harguments : HoldsExpressions (argumentsOfTy ty)) :
    IsExpression (ofTy ty) := by
  rw [ofTy_eq_spelled]
  exact isExpression_spelled (isPlain_nameOfTy ty) (nameOfTy_ne_nil ty) harguments

theorem holdsExpressions_argumentsOfTy (ty : Ty) : HoldsExpressions (argumentsOfTy ty) := by
  induction ty with
  | string | bool | hostNumber | dynamic => exact holdsExpressions_none
  | list element ih | map element ih =>
    have helement := isExpression_of_holdsExpressions ih
    exact holdsExpressions_some (List.forall_mem_singleton.mpr helement)
  | tuple elements ih =>
    refine holdsExpressions_some (List.forall_mem_singleton.mpr (isExpression_sequence ?_))
    rw [ofElements_eq_map]
    exact List.forall_mem_map.mpr fun element hmem =>
      isExpression_of_holdsExpressions (ih element hmem)
  | object attributes ih =>
    refine holdsExpressions_some (List.forall_mem_singleton.mpr (isExpression_table ?_))
    rw [ofTyAttributes_eq_pairs]
    exact isExpression_of_mem_pairs isExpression_quoted fun entry hmem =>
      isExpression_of_holdsExpressions (ih entry hmem)
  | capsule kind =>
    cases kind with
    | number | assetAmount => exact holdsExpressions_none
    | foreign name =>
      exact holdsExpressions_some (List.forall_mem_singleton.mpr (isExpression_quoted name))

theorem isExpression_ofTy (ty : Ty) : IsExpression (ofTy ty) :=
  isExpression_of_holdsExpressions (holdsExpressions_argumentsOfTy ty)

theorem sameForm_of_nameOfTy_eq (hname : nameOfTy ty = nameOfTy other) : SameForm ty other := by
  unfold nameOfTy at hname
  split at hname <;> split at hname <;> first | constructor | exact absurd hname (by decide)

/-- How the type is built and what it is built from can be read off the reproduction. -/
theorem spelling_eq_of_ofTy_eq (hsame : ofTy ty = ofTy other) :
    SameForm ty other ∧ argumentsOfTy ty = argumentsOfTy other := by
  rw [ofTy_eq_spelled ty, ofTy_eq_spelled other] at hsame
  obtain ⟨hname, harguments⟩ := eq_of_spelled_eq (isPlain_nameOfTy ty) (isPlain_nameOfTy other)
    (holdsExpressions_argumentsOfTy ty) (holdsExpressions_argumentsOfTy other) hsame
  exact ⟨sameForm_of_nameOfTy_eq hname, harguments⟩

/-- No two types have the same reproduction. -/
theorem eq_of_ofTy_eq (hsame : ofTy ty = ofTy other) : ty = other := by
  induction ty generalizing other
  all_goals obtain ⟨hform, harguments⟩ := spelling_eq_of_ofTy_eq hsame
  case string | bool | hostNumber | dynamic =>
    cases hform
    rfl
  case list element ih | map element ih =>
    cases hform
    rw [ih (List.singleton_inj.mp (Option.some.inj harguments))]
  case tuple elements ih =>
    cases hform with
    | tuple _ others =>
      have hsequence := List.singleton_inj.mp (Option.some.inj harguments)
      rw [ofElements_eq_map, ofElements_eq_map] at hsequence
      rw [eq_of_sequence_map_eq isExpression_ofTy (fun element hmem _ _ => ih element hmem)
        hsequence]
  case object attributes ih =>
    cases hform with
    | object _ others =>
      have htable := List.singleton_inj.mp (Option.some.inj harguments)
      rw [ofTyAttributes_eq_pairs, ofTyAttributes_eq_pairs] at htable
      rw [eq_of_table_pairs_eq isExpression_quoted (fun _ _ => eq_of_quoted_eq) isExpression_ofTy
        (fun entry hmem _ _ => ih entry hmem) htable]
  case capsule kind =>
    cases hform with
    | number | assetAmount => rfl
    | foreign name otherName =>
      rw [eq_of_quoted_eq (List.singleton_inj.mp (Option.some.inj harguments))]

end LedgerValue.Reproduction

import LedgerValue.Record

/-!
# Types

Types are structural: equal exactly when they are built alike. An object type holds its attributes
as a record, so that the order in which they are given does not matter. Capsules are the types of
the host, told apart by name. Main statement: equality of types is decidable (`same_iff`).
-/

namespace LedgerValue

/-- The kinds of capsule. -/
inductive Capsule where
  /-- The exact number. -/
  | number
  /-- The amount of an asset. -/
  | assetAmount
  /-- A kind that only the host understands. -/
  | foreign (name : String)
deriving DecidableEq, Repr

/-- The name of a capsule in messages. -/
def Capsule.name : Capsule → String
  | number => "number"
  | assetAmount => "asset amount"
  | foreign name => name

/-- A type. -/
inductive Ty where
  /-- Text. -/
  | string
  /-- A truth value. -/
  | bool
  /-- The host's binary number. -/
  | hostNumber
  /-- A sequence of any length over one type. -/
  | list (element : Ty)
  /-- Named entries of one type. -/
  | map (element : Ty)
  /-- A sequence with a type for each position. -/
  | tuple (elements : List Ty)
  /-- Named attributes with a type for each name, in increasing order of the names. -/
  | object (attributes : List (String × Ty))
  /-- A capsule. -/
  | capsule (kind : Capsule)
  /-- A type that is not yet known. -/
  | dynamic
deriving Repr

namespace Ty

/-- The type of exact numbers. -/
@[match_pattern] abbrev number : Ty := capsule .number

/-- The type of asset amounts. -/
@[match_pattern] abbrev assetAmount : Ty := capsule .assetAmount

/-- The object type with some attributes, given in any order. -/
def objectOf (attributes : List (String × Ty)) : Ty := object (Record.ofList attributes)

mutual

/-- The types are built alike. -/
def same : Ty → Ty → Bool
  | string, string => true
  | bool, bool => true
  | hostNumber, hostNumber => true
  | dynamic, dynamic => true
  | list s, list t => same s t
  | map s, map t => same s t
  | tuple ss, tuple ts => sameElements ss ts
  | object ss, object ts => sameAttributes ss ts
  | capsule s, capsule t => s = t
  | _, _ => false

/-- The element types are built alike. -/
def sameElements : List Ty → List Ty → Bool
  | [], [] => true
  | s :: ss, t :: ts => same s t && sameElements ss ts
  | _, _ => false

/-- The attributes have the same names and types built alike. -/
def sameAttributes : List (String × Ty) → List (String × Ty) → Bool
  | [], [] => true
  | (m, s) :: ss, (n, t) :: ts => m = n && same s t && sameAttributes ss ts
  | _, _ => false

end

mutual

@[simp]
theorem same_iff : ∀ {s t : Ty}, same s t = true ↔ s = t
  | s, t => by
    cases s <;> cases t <;> simp [same]
    case list.list => exact same_iff
    case map.map => exact same_iff
    case tuple.tuple => exact sameElements_iff
    case object.object => exact sameAttributes_iff

theorem sameElements_iff : ∀ {ss ts : List Ty}, sameElements ss ts = true ↔ ss = ts
  | [], [] => by simp [sameElements]
  | [], _ :: _ => by simp [sameElements]
  | _ :: _, [] => by simp [sameElements]
  | s :: ss, t :: ts => by
    simp [sameElements, @same_iff s t, @sameElements_iff ss ts]

theorem sameAttributes_iff : ∀ {ss ts : List (String × Ty)}, sameAttributes ss ts = true ↔ ss = ts
  | [], [] => by simp [sameAttributes]
  | [], _ :: _ => by simp [sameAttributes]
  | _ :: _, [] => by simp [sameAttributes]
  | (m, s) :: ss, (n, t) :: ts => by
    simp [sameAttributes, @same_iff s t, @sameAttributes_iff ss ts, and_assoc]

end

instance : DecidableEq Ty := fun s t => decidable_of_iff (same s t = true) same_iff

/-- The type is the one that is not yet known. -/
def isDynamic : Ty → Bool
  | dynamic => true
  | _ => false

/-- The type of the elements of a list or map. -/
def element? : Ty → Option Ty
  | list element => some element
  | map element => some element
  | _ => none

/-- The type of an attribute of an object. -/
def attribute? (name : String) : Ty → Option Ty
  | object attributes => attributes.lookup name
  | _ => none

/-- The short name of a type in messages. -/
def describe : Ty → String
  | string => "string"
  | bool => "bool"
  | hostNumber => "number"
  | list element => "list of " ++ element.describe
  | map element => "map of " ++ element.describe
  | tuple _ => "tuple"
  | object _ => "object"
  | capsule kind => kind.name
  | dynamic => "dynamic"

mutual

/-- The attributes of every object type within are a record. -/
def WellFormed : Ty → Prop
  | list element => element.WellFormed
  | map element => element.WellFormed
  | tuple elements => ElementsWellFormed elements
  | object attributes => Record.Ordered attributes ∧ AttributesWellFormed attributes
  | _ => True

/-- Every element type is well formed. -/
def ElementsWellFormed : List Ty → Prop
  | [] => True
  | element :: rest => element.WellFormed ∧ ElementsWellFormed rest

/-- Every attribute type is well formed. -/
def AttributesWellFormed : List (String × Ty) → Prop
  | [] => True
  | (_, ty) :: rest => ty.WellFormed ∧ AttributesWellFormed rest

end

end Ty

end LedgerValue

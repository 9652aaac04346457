import LedgerValue.AssetAmount
import LedgerValue.HostNumber.Basic
import LedgerValue.Text.Quoted
import LedgerValue.Ty.Basic

/-!
# Values

A value is null of a type, unknown of a type, or known, and then it determines its own type. The
entries of a map and the attributes of an object are records. A list and a map declare the type of
their elements; `ofItems` and `ofEntries` build them and refuse elements of another type. Main
statements: they refuse nothing else (`ofItems_eq_ok_iff`, `ofEntries_eq_ok_iff`).
-/

namespace LedgerValue

/-- A value. -/
inductive Value where
  /-- The absent value of a type. -/
  | null (ty : Ty)
  /-- A value of a type that is not yet known. -/
  | unknown (ty : Ty)
  /-- A text. -/
  | string (text : String)
  /-- A truth value. -/
  | bool (value : Bool)
  /-- A binary number of the host. -/
  | hostNumber (value : HostNumber)
  /-- An exact number. -/
  | number (value : Number)
  /-- An amount of an asset. -/
  | amount (value : AssetAmount)
  /-- A sequence over one type. -/
  | list (element : Ty) (items : List Value)
  /-- Named entries of one type, in increasing order of the names. -/
  | map (element : Ty) (entries : List (String × Value))
  /-- A sequence with a type for each position. -/
  | tuple (items : List Value)
  /-- Named attributes, in increasing order of the names. -/
  | object (attributes : List (String × Value))
  /-- The payload of a capsule that only the host understands. -/
  | foreign (capsule : String) (payload : List UInt8)

namespace Value

/-- The unknown value of unknown type. -/
abbrev dynamic : Value := unknown .dynamic

/-- The object with some attributes, given in any order. -/
def objectOf (attributes : List (String × Value)) : Value := object (Record.ofList attributes)

mutual

/-- The type of a value. -/
def ty : Value → Ty
  | null ty => ty
  | unknown ty => ty
  | string _ => .string
  | bool _ => .bool
  | hostNumber _ => .hostNumber
  | number _ => .number
  | amount _ => .assetAmount
  | list element _ => .list element
  | map element _ => .map element
  | tuple items => .tuple (tys items)
  | object attributes => .object (attributeTys attributes)
  | foreign capsule _ => .capsule (.foreign capsule)

/-- The types of some values. -/
def tys : List Value → List Ty
  | [] => []
  | item :: rest => item.ty :: tys rest

/-- The names and types of some attributes. -/
def attributeTys : List (String × Value) → List (String × Ty)
  | [] => []
  | (name, value) :: rest => (name, value.ty) :: attributeTys rest

end

@[simp]
theorem tys_eq_map (items : List Value) : tys items = items.map ty := by
  induction items with
  | nil => rfl
  | cons item rest ih => simp only [tys, ih, List.map_cons]

@[simp]
theorem attributeTys_eq_mapValues (attributes : List (String × Value)) :
    attributeTys attributes = Record.mapValues ty attributes := by
  induction attributes with
  | nil => rfl
  | cons head rest ih =>
    obtain ⟨name, value⟩ := head
    simp only [attributeTys, ih, Record.mapValues, List.map_cons]

/-- Only an unknown value is not known; the absence of a null value is certain. -/
def isKnown : Value → Bool
  | unknown _ => false
  | _ => true

/-- The value is null. -/
def isNull : Value → Bool
  | null _ => true
  | _ => false

/-- The value is neither null nor unknown. -/
def hasPayload : Value → Bool
  | null _ => false
  | unknown _ => false
  | _ => true

/-- The text of a known string. -/
def text? : Value → Option String
  | string text => some text
  | _ => none

/-- The number of a known exact number. -/
def number? : Value → Option Number
  | number value => some value
  | _ => none

/-- The amount of a known asset amount. -/
def amount? : Value → Option AssetAmount
  | amount value => some value
  | _ => none

/-- An attribute of a known object. -/
def attribute? (name : String) : Value → Option Value
  | object attributes => attributes.lookup name
  | _ => none

/-- An element that does not have the declared type. -/
inductive ElementFault where
  /-- An item of a list. -/
  | item (position : Nat) (found wanted : Ty)
  /-- An entry of a map. -/
  | entry (key : String) (found wanted : Ty)
deriving DecidableEq, Repr

/-- The report of an element that does not have the declared type. -/
def ElementFault.message : ElementFault → String
  | item position found wanted =>
    "Inconsistent list element: item " ++ toString position ++ " has type " ++ found.describe
      ++ ", list wants " ++ wanted.describe
  | entry key found wanted =>
    "Inconsistent map element: " ++ Text.quoted key ++ " has type " ++ found.describe
      ++ ", map wants " ++ wanted.describe

/-- The first item that does not have the type, counted from `position`. -/
def itemFault? (element : Ty) (position : Nat) : List Value → Option ElementFault
  | [] => none
  | item :: rest =>
    if item.ty = element then itemFault? element (position + 1) rest
    else some (.item position item.ty element)

/-- The first entry that does not have the type. -/
def entryFault? (element : Ty) : List (String × Value) → Option ElementFault
  | [] => none
  | (key, value) :: rest =>
    if value.ty = element then entryFault? element rest
    else some (.entry key value.ty element)

/-- The list of some items, if all have the declared type. -/
def ofItems (element : Ty) (items : List Value) : Except ElementFault Value :=
  match itemFault? element 0 items with
  | some fault => .error fault
  | none => .ok (list element items)

/-- The map of a record of entries, if all have the declared type. -/
def ofEntries (element : Ty) (entries : List (String × Value)) : Except ElementFault Value :=
  match entryFault? element entries with
  | some fault => .error fault
  | none => .ok (map element entries)

theorem itemFault?_eq_none_iff {element : Ty} {position : Nat} {items : List Value} :
    itemFault? element position items = none ↔ ∀ item ∈ items, item.ty = element := by
  induction items generalizing position with
  | nil => simp [itemFault?]
  | cons item rest ih =>
    simp only [itemFault?, List.mem_cons, forall_eq_or_imp]
    split
    · rename_i heq
      rw [ih]
      exact ⟨fun hrest => ⟨heq, hrest⟩, fun hall => hall.2⟩
    · rename_i hne
      exact ⟨fun hsome => by simp at hsome, fun hall => absurd hall.1 hne⟩

theorem entryFault?_eq_none_iff {element : Ty} {entries : List (String × Value)} :
    entryFault? element entries = none ↔ ∀ entry ∈ entries, entry.2.ty = element := by
  induction entries with
  | nil => simp [entryFault?]
  | cons head rest ih =>
    obtain ⟨key, value⟩ := head
    simp only [entryFault?, List.mem_cons, forall_eq_or_imp]
    split
    · rename_i heq
      rw [ih]
      exact ⟨fun hrest => ⟨heq, hrest⟩, fun hall => hall.2⟩
    · rename_i hne
      exact ⟨fun hsome => by simp at hsome, fun hall => absurd hall.1 hne⟩

theorem ofItems_eq_ok_iff {element : Ty} {items : List Value} {value : Value} :
    ofItems element items = .ok value ↔
      (∀ item ∈ items, item.ty = element) ∧ value = list element items := by
  rw [← @itemFault?_eq_none_iff element 0, ofItems]
  split
  · rename_i hfault
    simp [hfault]
  · rename_i hnone
    simp [hnone, eq_comm]

theorem ofEntries_eq_ok_iff {element : Ty} {entries : List (String × Value)} {value : Value} :
    ofEntries element entries = .ok value ↔
      (∀ entry ∈ entries, entry.2.ty = element) ∧ value = map element entries := by
  rw [← @entryFault?_eq_none_iff element, ofEntries]
  split
  · rename_i hfault
    simp [hfault]
  · rename_i hnone
    simp [hnone, eq_comm]

end Value

end LedgerValue

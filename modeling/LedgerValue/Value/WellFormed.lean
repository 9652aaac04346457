import LedgerValue.Value.Basic

/-!
# Well-formed values

A value is well formed when at every depth lists and maps hold elements of the type that they
declare, and the entries of maps, the attributes of objects and those of object types are records.
Main statement: a well-formed value has a well-formed type (`wellFormed_ty`).
-/

namespace LedgerValue

namespace Ty

@[simp]
theorem elementsWellFormed_iff {elements : List Ty} :
    ElementsWellFormed elements ↔ ∀ element ∈ elements, element.WellFormed := by
  induction elements with
  | nil => simp [ElementsWellFormed]
  | cons element rest ih => simp only [ElementsWellFormed, ih, List.forall_mem_cons]

@[simp]
theorem attributesWellFormed_iff {attributes : List (String × Ty)} :
    AttributesWellFormed attributes ↔ ∀ entry ∈ attributes, entry.2.WellFormed := by
  induction attributes with
  | nil => simp [AttributesWellFormed]
  | cons head rest ih =>
    obtain ⟨name, ty⟩ := head
    simp only [AttributesWellFormed, ih, List.forall_mem_cons]

end Ty

namespace Value

mutual

/-- Declared types hold and names are in order, at every depth. -/
def WellFormed : Value → Prop
  | null ty => ty.WellFormed
  | unknown ty => ty.WellFormed
  | list element items =>
    element.WellFormed ∧ (∀ item ∈ items, item.ty = element) ∧ ItemsWellFormed items
  | map element entries =>
    element.WellFormed ∧ (∀ entry ∈ entries, entry.2.ty = element) ∧ Record.Ordered entries
      ∧ EntriesWellFormed entries
  | tuple items => ItemsWellFormed items
  | object attributes => Record.Ordered attributes ∧ EntriesWellFormed attributes
  | _ => True

/-- Every item is well formed. -/
def ItemsWellFormed : List Value → Prop
  | [] => True
  | item :: rest => item.WellFormed ∧ ItemsWellFormed rest

/-- The value of every entry is well formed. -/
def EntriesWellFormed : List (String × Value) → Prop
  | [] => True
  | (_, value) :: rest => value.WellFormed ∧ EntriesWellFormed rest

end

@[simp]
theorem itemsWellFormed_iff {items : List Value} :
    ItemsWellFormed items ↔ ∀ item ∈ items, item.WellFormed := by
  induction items with
  | nil => simp [ItemsWellFormed]
  | cons item rest ih => simp only [ItemsWellFormed, ih, List.forall_mem_cons]

@[simp]
theorem entriesWellFormed_iff {entries : List (String × Value)} :
    EntriesWellFormed entries ↔ ∀ entry ∈ entries, entry.2.WellFormed := by
  induction entries with
  | nil => simp [EntriesWellFormed]
  | cons head rest ih =>
    obtain ⟨name, value⟩ := head
    simp only [EntriesWellFormed, ih, List.forall_mem_cons]

@[simp]
theorem wellFormed_list_iff {element : Ty} {items : List Value} :
    (list element items).WellFormed ↔
      element.WellFormed ∧ (∀ item ∈ items, item.ty = element) ∧
        ∀ item ∈ items, item.WellFormed := by
  rw [WellFormed, itemsWellFormed_iff]

@[simp]
theorem wellFormed_map_iff {element : Ty} {entries : List (String × Value)} :
    (map element entries).WellFormed ↔
      element.WellFormed ∧ (∀ entry ∈ entries, entry.2.ty = element) ∧
        Record.Ordered entries ∧ ∀ entry ∈ entries, entry.2.WellFormed := by
  rw [WellFormed, entriesWellFormed_iff]

@[simp]
theorem wellFormed_tuple_iff {items : List Value} :
    (tuple items).WellFormed ↔ ∀ item ∈ items, item.WellFormed := by
  rw [WellFormed, itemsWellFormed_iff]

@[simp]
theorem wellFormed_object_iff {attributes : List (String × Value)} :
    (object attributes).WellFormed ↔
      Record.Ordered attributes ∧ ∀ entry ∈ attributes, entry.2.WellFormed := by
  rw [WellFormed, entriesWellFormed_iff]

mutual

theorem wellFormed_ty : ∀ {value : Value}, value.WellFormed → value.ty.WellFormed
  | null _, hvalue => by simpa only [ty, WellFormed] using hvalue
  | unknown _, hvalue => by simpa only [ty, WellFormed] using hvalue
  | string _, _ | bool _, _ | hostNumber _, _ | number _, _ | amount _, _ | foreign _ _, _ => by
    simp only [ty, Ty.WellFormed]
  | list _ _, hvalue => by
    simp only [WellFormed] at hvalue
    simpa only [ty, Ty.WellFormed] using hvalue.1
  | map _ _, hvalue => by
    simp only [WellFormed] at hvalue
    simpa only [ty, Ty.WellFormed] using hvalue.1
  | tuple items, hvalue => by
    simp only [WellFormed] at hvalue
    simpa only [ty, Ty.WellFormed] using elementsWellFormed_tys hvalue
  | object attributes, hvalue => by
    simp only [WellFormed] at hvalue
    simp only [ty, Ty.WellFormed]
    refine ⟨?_, attributesWellFormed_attributeTys hvalue.2⟩
    rw [attributeTys_eq_mapValues]
    exact Record.ordered_mapValues _ hvalue.1

theorem elementsWellFormed_tys :
    ∀ {items : List Value}, ItemsWellFormed items → Ty.ElementsWellFormed (tys items)
  | [], _ => by simp only [tys, Ty.ElementsWellFormed]
  | _ :: _, hitems => by
    simp only [ItemsWellFormed] at hitems
    simpa only [tys, Ty.ElementsWellFormed] using
      ⟨wellFormed_ty hitems.1, elementsWellFormed_tys hitems.2⟩

theorem attributesWellFormed_attributeTys : ∀ {attributes : List (String × Value)},
    EntriesWellFormed attributes → Ty.AttributesWellFormed (attributeTys attributes)
  | [], _ => by simp only [attributeTys, Ty.AttributesWellFormed]
  | (_, _) :: _, hattributes => by
    simp only [EntriesWellFormed] at hattributes
    simpa only [attributeTys, Ty.AttributesWellFormed] using
      ⟨wellFormed_ty hattributes.1, attributesWellFormed_attributeTys hattributes.2⟩

end

end Value

end LedgerValue

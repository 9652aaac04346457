import LedgerValue.Proofs.Induction
import LedgerValue.Proofs.Record
import LedgerValue.Ty.Json
import LedgerValue.Value.WellFormed

/-!
# Types survive JSON

A type is read back from what is written for it (`ofJson?_toJson`). The names of an object type have
to be in order, since the reader puts them in order.
-/

namespace LedgerValue

@[simp]
theorem Capsule.ofJson?_toJson (kind : Capsule) : Capsule.ofJson? kind.toJson = some kind := by
  cases kind with
  | number => simp [toJson, ofJson?]
  | assetAmount => simp [toJson, ofJson?]
  | foreign name => simp [toJson, ofJson?, Json.text?]

namespace Ty

theorem itemsOfJson?_elementsToJson {elements : List Ty}
    (helements : ∀ element ∈ elements, ofJson? element.toJson = some element) :
    itemsOfJson? (elementsToJson elements) = some elements := by
  induction elements with
  | nil => rfl
  | cons element rest ih =>
    obtain ⟨helement, hrest⟩ := List.forall_mem_cons.mp helements
    rw [elementsToJson, itemsOfJson?, helement, ih hrest]
    rfl

theorem membersOfJson?_attributesToJson {attributes : List (String × Ty)}
    (hattributes : ∀ entry ∈ attributes, ofJson? entry.2.toJson = some entry.2) :
    membersOfJson? (attributesToJson attributes) = some attributes := by
  induction attributes with
  | nil => rfl
  | cons entry rest ih =>
    obtain ⟨name, ty⟩ := entry
    obtain ⟨hty, hrest⟩ := List.forall_mem_cons.mp hattributes
    rw [attributesToJson, membersOfJson?, hty, ih hrest]
    rfl

theorem ofJson?_toJson {ty : Ty} (hty : ty.WellFormed) : ofJson? ty.toJson = some ty := by
  induction ty with
  | string | bool | hostNumber | dynamic => simp [toJson, ofJson?, ofName?]
  | list element ih =>
    simp only [WellFormed] at hty
    simp [toJson, ofJson?, ih hty]
  | map element ih =>
    simp only [WellFormed] at hty
    simp [toJson, ofJson?, ih hty]
  | tuple elements ih =>
    simp only [WellFormed] at hty
    have hread := itemsOfJson?_elementsToJson fun element hmem =>
      ih element hmem (elementsWellFormed_iff.mp hty element hmem)
    simp [toJson, ofJson?, elementsOfJson?, hread]
  | object attributes ih =>
    simp only [WellFormed] at hty
    have hread := membersOfJson?_attributesToJson fun entry hmem =>
      ih entry hmem (attributesWellFormed_iff.mp hty.2 entry hmem)
    simp [toJson, ofJson?, attributesOfJson?, hread, objectOf, Record.ofList_of_ordered hty.1]
  | capsule kind => simp [toJson, ofJson?, Capsule.ofJson?_toJson]

end Ty

end LedgerValue

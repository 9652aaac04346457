import LedgerValue.Proofs.Canonical.RoundTrip
import LedgerValue.Proofs.Json.RoundTrip
import LedgerValue.Proofs.Text.Utf8

/-!
# What documents look like

A document holds no decimals and no integers beyond a word (`isPlain_document`), so that its text
can be read back. In every object of its type part and of its value part the names are strictly
increasing in the order of their bytes (`keysIncrease_toJson`, `keysIncrease_ofValue`).
-/

namespace LedgerValue

namespace Json

mutual

/-- In every object within, the names are strictly increasing in the order of their bytes. -/
def KeysIncrease : Json → Prop
  | array items => ItemKeysIncrease items
  | object members =>
    (members.Pairwise fun left right => Text.utf8 left.1 < Text.utf8 right.1) ∧
      MemberKeysIncrease members
  | _ => True

/-- In every object within the items, the names are strictly increasing. -/
def ItemKeysIncrease : List Json → Prop
  | [] => True
  | item :: rest => item.KeysIncrease ∧ ItemKeysIncrease rest

/-- In every object within the values of the members, the names are strictly increasing. -/
def MemberKeysIncrease : List (String × Json) → Prop
  | [] => True
  | (_, value) :: rest => value.KeysIncrease ∧ MemberKeysIncrease rest

end

@[simp]
theorem itemKeysIncrease_iff {items : List Json} :
    ItemKeysIncrease items ↔ ∀ item ∈ items, item.KeysIncrease := by
  induction items with
  | nil => simp [ItemKeysIncrease]
  | cons item rest ih => simp only [ItemKeysIncrease, ih, List.forall_mem_cons]

@[simp]
theorem memberKeysIncrease_iff {members : List (String × Json)} :
    MemberKeysIncrease members ↔ ∀ entry ∈ members, entry.2.KeysIncrease := by
  induction members with
  | nil => simp [MemberKeysIncrease]
  | cons entry rest ih =>
    obtain ⟨name, value⟩ := entry
    simp only [MemberKeysIncrease, ih, List.forall_mem_cons]

@[simp]
theorem keysIncrease_array_iff {items : List Json} :
    (array items).KeysIncrease ↔ ∀ item ∈ items, item.KeysIncrease :=
  itemKeysIncrease_iff

@[simp]
theorem keysIncrease_object_iff {members : List (String × Json)} :
    (object members).KeysIncrease ↔
      Record.Ordered members ∧ ∀ entry ∈ members, entry.2.KeysIncrease := by
  simp [KeysIncrease, Record.Ordered]

theorem keysIncrease_singleton_iff {name : String} {value : Json} :
    (object [(name, value)]).KeysIncrease ↔ value.KeysIncrease := by
  rw [keysIncrease_object_iff, List.forall_mem_singleton]
  exact and_iff_right (List.pairwise_singleton _ _)

end Json

namespace Ty

@[simp]
theorem elementsToJson_eq_map (elements : List Ty) :
    elementsToJson elements = elements.map toJson := by
  induction elements with
  | nil => rfl
  | cons element rest ih => rw [elementsToJson, ih, List.map_cons]

@[simp]
theorem attributesToJson_eq_mapValues (attributes : List (String × Ty)) :
    attributesToJson attributes = Record.mapValues toJson attributes := by
  induction attributes with
  | nil => rfl
  | cons entry rest ih =>
    obtain ⟨name, ty⟩ := entry
    rw [attributesToJson, ih, Record.mapValues, Record.mapValues, List.map_cons]

theorem isPlain_toJson (ty : Ty) : ty.toJson.IsPlain := by
  induction ty with
  | string | bool | hostNumber | dynamic => trivial
  | list element ih => exact ⟨ih, trivial⟩
  | map element ih => exact ⟨ih, trivial⟩
  | tuple elements ih =>
    refine ⟨Json.itemsPlain_iff.mpr ?_, trivial⟩
    rw [elementsToJson_eq_map]
    exact List.forall_mem_map.mpr ih
  | object attributes ih =>
    refine ⟨Json.membersPlain_iff.mpr ?_, trivial⟩
    rw [attributesToJson_eq_mapValues]
    exact List.forall_mem_map.mpr ih
  | capsule kind =>
    refine ⟨?_, trivial⟩
    cases kind with
    | number | assetAmount => trivial
    | foreign name => exact ⟨trivial, trivial⟩

theorem keysIncrease_toJson {ty : Ty} (hty : ty.WellFormed) : ty.toJson.KeysIncrease := by
  induction ty with
  | string | bool | hostNumber | dynamic => trivial
  | list element ih => exact Json.keysIncrease_singleton_iff.mpr (ih hty)
  | map element ih => exact Json.keysIncrease_singleton_iff.mpr (ih hty)
  | tuple elements ih =>
    refine Json.keysIncrease_singleton_iff.mpr (Json.keysIncrease_array_iff.mpr ?_)
    rw [elementsToJson_eq_map]
    exact List.forall_mem_map.mpr fun element hmem =>
      ih element hmem (elementsWellFormed_iff.mp hty element hmem)
  | object attributes ih =>
    refine Json.keysIncrease_singleton_iff.mpr (Json.keysIncrease_object_iff.mpr ?_)
    rw [attributesToJson_eq_mapValues]
    refine ⟨Record.ordered_mapValues _ hty.1, List.forall_mem_map.mpr fun entry hmem => ?_⟩
    exact ih entry hmem (attributesWellFormed_iff.mp hty.2 entry hmem)
  | capsule kind =>
    refine Json.keysIncrease_singleton_iff.mpr ?_
    cases kind with
    | number | assetAmount => trivial
    | foreign name => exact Json.keysIncrease_singleton_iff.mpr trivial

end Ty

namespace Canonical

theorem isPlain_ofValue {value : Value} {json : Json} (hjson : ofValue value = .ok json) :
    json.IsPlain := by
  induction value generalizing json with
  | unknown ty => cases hjson
  | null | string | bool | number | foreign =>
    obtain rfl := Except.ok.inj hjson
    trivial
  | hostNumber x =>
    obtain ⟨n, -, rfl⟩ := map_eq_ok_iff.mp hjson
    trivial
  | amount amount =>
    obtain rfl := Except.ok.inj hjson
    have hlow := amount.raw.le_toInt
    have hhigh := amount.raw.toInt_lt
    exact ⟨by omega, by omega⟩
  | list _ items ih | tuple items ih =>
    obtain ⟨jsons, hjsons, rfl⟩ := map_eq_ok_iff.mp hjson
    refine Json.itemsPlain_iff.mpr fun json hmem => ?_
    obtain ⟨item, hitem, hjson⟩ := exists_of_mem_of_forall₂ (ofItems_eq_ok_iff.mp hjsons).flip hmem
    exact ih item hitem hjson
  | map _ entries ih | object entries ih =>
    obtain ⟨members, hmembers, rfl⟩ := map_eq_ok_iff.mp hjson
    refine Json.membersPlain_iff.mpr fun member hmem => ?_
    obtain ⟨entry, hentry, -, hjson⟩ :=
      exists_of_mem_of_forall₂ (ofEntries_eq_ok_iff.mp hmembers).flip hmem
    exact ih entry hentry hjson

theorem isPlain_document {value : Value} {json : Json} (hjson : document value = .ok json) :
    json.IsPlain := by
  obtain ⟨part, hpart, rfl⟩ := map_eq_ok_iff.mp hjson
  exact ⟨⟨by decide, by decide⟩, value.ty.isPlain_toJson, isPlain_ofValue hpart, trivial⟩

theorem keysIncrease_ofItems {items : List Value} {jsons : List Json}
    (hitems : ∀ item ∈ items, ∀ json, ofValue item = .ok json → json.KeysIncrease)
    (hjsons : ofItems items = .ok jsons) : (Json.array jsons).KeysIncrease := by
  refine Json.keysIncrease_array_iff.mpr fun json hmem => ?_
  obtain ⟨item, hitem, hjson⟩ := exists_of_mem_of_forall₂ (ofItems_eq_ok_iff.mp hjsons).flip hmem
  exact hitems item hitem json hjson

theorem keysIncrease_ofEntries {entries : List (String × Value)} {members : List (String × Json)}
    (hordered : Record.Ordered entries)
    (hentries : ∀ entry ∈ entries, ∀ json, ofValue entry.2 = .ok json → json.KeysIncrease)
    (hmembers : ofEntries entries = .ok members) : (Json.object members).KeysIncrease := by
  rw [ofEntries_eq_ok_iff] at hmembers
  have hkeys := keys_eq_of_forall₂ (hmembers.imp fun _ _ h => h.1)
  refine Json.keysIncrease_object_iff.mpr ⟨Record.ordered_of_keys_eq hordered hkeys, ?_⟩
  intro member hmem
  obtain ⟨entry, hentry, -, hjson⟩ := exists_of_mem_of_forall₂ hmembers.flip hmem
  exact hentries entry hentry member.2 hjson

theorem keysIncrease_ofValue {value : Value} {json : Json} (hvalue : value.WellFormed)
    (hjson : ofValue value = .ok json) : json.KeysIncrease := by
  induction value generalizing json with
  | unknown ty => cases hjson
  | null | string | bool | number | amount | foreign =>
    obtain rfl := Except.ok.inj hjson
    trivial
  | hostNumber x =>
    obtain ⟨n, -, rfl⟩ := map_eq_ok_iff.mp hjson
    trivial
  | list element items ih =>
    rw [Value.wellFormed_list_iff] at hvalue
    obtain ⟨jsons, hjsons, rfl⟩ := map_eq_ok_iff.mp hjson
    exact keysIncrease_ofItems (fun item hmem _ => ih item hmem (hvalue.2.2 item hmem)) hjsons
  | map element entries ih =>
    rw [Value.wellFormed_map_iff] at hvalue
    obtain ⟨members, hmembers, rfl⟩ := map_eq_ok_iff.mp hjson
    exact keysIncrease_ofEntries hvalue.2.2.1
      (fun entry hmem _ => ih entry hmem (hvalue.2.2.2 entry hmem)) hmembers
  | tuple items ih =>
    rw [Value.wellFormed_tuple_iff] at hvalue
    obtain ⟨jsons, hjsons, rfl⟩ := map_eq_ok_iff.mp hjson
    exact keysIncrease_ofItems (fun item hmem _ => ih item hmem (hvalue item hmem)) hjsons
  | object attributes ih =>
    rw [Value.wellFormed_object_iff] at hvalue
    obtain ⟨members, hmembers, rfl⟩ := map_eq_ok_iff.mp hjson
    exact keysIncrease_ofEntries hvalue.1
      (fun entry hmem _ => ih entry hmem (hvalue.2 entry hmem)) hmembers

end Canonical

end LedgerValue

import LedgerValue.Canonical.Writable
import LedgerValue.Proofs.Canonical.Leaf
import LedgerValue.Proofs.Ty.Json
import LedgerValue.Proofs.Value.Equality
import LedgerValue.Proofs.Value.Part

/-!
# Canonical documents are read back

The value part of a document has no tags, so it is read under the type that stands beside it. What
is read back is the value itself, only that the zeros of host numbers have lost their sign
(`readsBack`). Main statement: which values have a document, and that type and value are
read back from it (`document_roundTrip`).
-/

namespace LedgerValue

namespace Value

mutual

/-- The value in which the zeros of host numbers are positive. -/
def withPositiveZeros : Value → Value
  | hostNumber x => hostNumber x.withPositiveZero
  | list element items => list element (itemsWithPositiveZeros items)
  | map element entries => map element (entriesWithPositiveZeros entries)
  | tuple items => tuple (itemsWithPositiveZeros items)
  | object attributes => object (entriesWithPositiveZeros attributes)
  | other => other

/-- The items in which the zeros of host numbers are positive. -/
def itemsWithPositiveZeros : List Value → List Value
  | [] => []
  | item :: rest => item.withPositiveZeros :: itemsWithPositiveZeros rest

/-- The entries in which the zeros of host numbers are positive. -/
def entriesWithPositiveZeros : List (String × Value) → List (String × Value)
  | [] => []
  | (name, value) :: rest => (name, value.withPositiveZeros) :: entriesWithPositiveZeros rest

end

@[simp]
theorem itemsWithPositiveZeros_eq_map (items : List Value) :
    itemsWithPositiveZeros items = items.map withPositiveZeros := by
  induction items with
  | nil => rfl
  | cons item rest ih => rw [itemsWithPositiveZeros, ih, List.map_cons]

@[simp]
theorem entriesWithPositiveZeros_eq_mapValues (entries : List (String × Value)) :
    entriesWithPositiveZeros entries = Record.mapValues withPositiveZeros entries := by
  induction entries with
  | nil => rfl
  | cons entry rest ih =>
    obtain ⟨name, value⟩ := entry
    rw [entriesWithPositiveZeros, ih, Record.mapValues, Record.mapValues, List.map_cons]

@[simp]
theorem ty_withPositiveZeros (value : Value) : value.withPositiveZeros.ty = value.ty := by
  induction value with
  | tuple items ih =>
    simp only [withPositiveZeros, ty, tys_eq_map, itemsWithPositiveZeros_eq_map, List.map_map]
    exact congrArg Ty.tuple (List.map_congr_left ih)
  | object attributes ih =>
    simp only [withPositiveZeros, ty, attributeTys_eq_mapValues, Record.mapValues, List.map_map,
      entriesWithPositiveZeros_eq_mapValues]
    exact congrArg Ty.object <| List.map_congr_left fun entry hmem =>
      congrArg (Prod.mk entry.1) (ih entry hmem)
  | _ => simp only [withPositiveZeros, ty]

end Value

namespace Canonical

@[simp]
theorem itemsWritable_iff_forall {items : List Value} :
    itemsWritable items = true ↔ ∀ item ∈ items, isWritable item = true := by
  induction items with
  | nil => simp [itemsWritable]
  | cons item rest ih => simp [itemsWritable, ih]

@[simp]
theorem entriesWritable_iff_forall {entries : List (String × Value)} :
    entriesWritable entries = true ↔ ∀ entry ∈ entries, isWritable entry.2 = true := by
  induction entries with
  | nil => simp [entriesWritable]
  | cons entry rest ih => simp [entriesWritable, ih]

/-- The value is neither unknown nor a host number without an exact value. -/
def IsDefinite (value : Value) : Prop :=
  (∀ ty, value ≠ .unknown ty) ∧ ∀ x, value = .hostNumber x → x.isFinite = true

theorem isDefinite_iff {value : Value} (hvalue : ∀ step, value.part? step = none) :
    IsDefinite value ↔ ∀ path part, value.at? path = some part → IsDefinite part := by
  rw [Value.forall_at?_iff]
  simp [hvalue]

theorem isWritable_iff_forall_at? {value : Value} (hvalue : value.WellFormed) :
    isWritable value = true ↔ ∀ path part, value.at? path = some part → IsDefinite part := by
  induction value with
  | null | unknown | string | bool | hostNumber | number | amount | foreign =>
    rw [← isDefinite_iff fun step => by simp [Value.part?]]
    simp [isWritable, IsDefinite]
  | list element items ih =>
    rw [Value.wellFormed_list_iff] at hvalue
    rw [Value.forall_at?_iff, Value.forall_part?_list, isWritable, itemsWritable_iff_forall,
      and_iff_right (by simp [IsDefinite])]
    exact forall₂_congr fun item hmem => ih item hmem (hvalue.2.2 item hmem)
  | map element entries ih =>
    rw [Value.wellFormed_map_iff] at hvalue
    rw [Value.forall_at?_iff, Value.forall_part?_map hvalue.2.2.1, isWritable,
      entriesWritable_iff_forall, and_iff_right (by simp [IsDefinite])]
    exact forall₂_congr fun entry hmem => ih entry hmem (hvalue.2.2.2 entry hmem)
  | tuple items ih =>
    rw [Value.wellFormed_tuple_iff] at hvalue
    rw [Value.forall_at?_iff, Value.forall_part?_tuple, isWritable, itemsWritable_iff_forall,
      and_iff_right (by simp [IsDefinite])]
    exact forall₂_congr fun item hmem => ih item hmem (hvalue item hmem)
  | object attributes ih =>
    rw [Value.wellFormed_object_iff] at hvalue
    rw [Value.forall_at?_iff, Value.forall_part?_object hvalue.1, isWritable,
      entriesWritable_iff_forall, and_iff_right (by simp [IsDefinite])]
    exact forall₂_congr fun entry hmem => ih entry hmem (hvalue.2 entry hmem)

theorem rawEqual_withPositiveZeros {value : Value} (hvalue : isWritable value = true) :
    value.withPositiveZeros.rawEqual value = true := by
  induction value with
  | null | string | bool | number | amount | foreign =>
    simp [Value.withPositiveZeros, Value.rawEqual]
  | unknown ty => cases hvalue
  | hostNumber x =>
    cases x with
    | nan => cases hvalue
    | infinity negative => cases hvalue
    | finite negative rank =>
      cases negative <;>
        simp [Value.withPositiveZeros, HostNumber.withPositiveZero, Value.rawEqual,
          HostNumber.sameValue, Decidable.not_or_self]
  | list element items ih =>
    rw [isWritable, itemsWritable_iff_forall] at hvalue
    simp only [Value.withPositiveZeros, Value.rawEqual, Value.itemsWithPositiveZeros_eq_map,
      Value.rawEqualItems_iff, List.forall₂_map_left_iff, List.forall₂_same, decide_true,
      Bool.true_and]
    exact fun item hmem => ih item hmem (hvalue item hmem)
  | map element entries ih =>
    rw [isWritable, entriesWritable_iff_forall] at hvalue
    simp only [Value.withPositiveZeros, Value.rawEqual,
      Value.entriesWithPositiveZeros_eq_mapValues, Record.mapValues, Value.rawEqualEntries_iff,
      List.forall₂_map_left_iff, List.forall₂_same, decide_true, Bool.true_and, true_and]
    exact fun entry hmem => ih entry hmem (hvalue entry hmem)
  | tuple items ih =>
    rw [isWritable, itemsWritable_iff_forall] at hvalue
    simp only [Value.withPositiveZeros, Value.rawEqual, Value.itemsWithPositiveZeros_eq_map,
      Value.rawEqualItems_iff, List.forall₂_map_left_iff, List.forall₂_same]
    exact fun item hmem => ih item hmem (hvalue item hmem)
  | object attributes ih =>
    rw [isWritable, entriesWritable_iff_forall] at hvalue
    simp only [Value.withPositiveZeros, Value.rawEqual,
      Value.entriesWithPositiveZeros_eq_mapValues, Record.mapValues, Value.rawEqualEntries_iff,
      List.forall₂_map_left_iff, List.forall₂_same, true_and]
    exact fun entry hmem => ih entry hmem (hvalue entry hmem)

theorem ofItems_eq_ok_iff {items : List Value} {jsons : List Json} :
    ofItems items = .ok jsons ↔
      List.Forall₂ (fun item json => ofValue item = .ok json) items jsons := by
  induction items generalizing jsons with
  | nil => simp [ofItems, List.forall₂_nil_left_iff, eq_comm]
  | cons item rest ih =>
    simp only [ofItems, cons_eq_ok_iff, ih, List.forall₂_cons_left_iff]

theorem ofEntries_eq_ok_iff {entries : List (String × Value)} {members : List (String × Json)} :
    ofEntries entries = .ok members ↔
      List.Forall₂ (fun entry member => entry.1 = member.1 ∧ ofValue entry.2 = .ok member.2)
        entries members := by
  induction entries generalizing members with
  | nil => simp [ofEntries, List.forall₂_nil_left_iff, eq_comm]
  | cons entry rest ih =>
    obtain ⟨name, value⟩ := entry
    simp only [ofEntries, consNamed_eq_ok_iff, ih, List.forall₂_cons_left_iff]

theorem readPositions_eq_ok_iff {elements : List Ty} {position : Nat} {jsons : List Json}
    {values : List Value} (hlength : jsons.length = elements.length) :
    readPositions elements position jsons = .ok values ↔
      List.Forall₂ (fun (place : Ty × Json) value => readValue place.1 place.2 = .ok value)
        (elements.zip jsons) values := by
  induction elements generalizing position jsons values with
  | nil => simp [readPositions, List.forall₂_nil_left_iff, eq_comm]
  | cons element elements ih =>
    cases jsons with
    | nil => cases hlength
    | cons json jsons =>
      simp only [readPositions, cons_eq_ok_iff, mapError_eq_ok_iff, ih (Nat.succ.inj hlength),
        List.zip_cons_cons, List.forall₂_cons_left_iff]

theorem readAttributes_eq_ok_iff {attributes : List (String × Ty)}
    {members : List (String × Json)} {entries : List (String × Value)} :
    readAttributes attributes members = .ok entries ↔
      List.Forall₂ (fun declared entry => declared.1 = entry.1 ∧
        ∃ member, members.lookup declared.1 = some member ∧
          readValue declared.2 member = .ok entry.2) attributes entries := by
  induction attributes generalizing entries with
  | nil => simp [readAttributes, List.forall₂_nil_left_iff, eq_comm]
  | cons declared rest ih =>
    obtain ⟨name, ty⟩ := declared
    rw [readAttributes, List.forall₂_cons_left_iff]
    cases hmember : members.lookup name with
    | none => simp [refuse]
    | some member =>
      simp only [consNamed_eq_ok_iff, mapError_eq_ok_iff, ih, Option.some.injEq, exists_eq_left']

/-- What is written of the value is read back under its type, with positive zeros. -/
def ReadsBack (value : Value) : Prop :=
  ∀ json, ofValue value = .ok json → readValue value.ty json = .ok value.withPositiveZeros

theorem readsBack_hostNumber (x : HostNumber) : ReadsBack (.hostNumber x) := by
  intro json hjson
  obtain ⟨n, hn, rfl⟩ := map_eq_ok_iff.mp hjson
  have hzero := HostNumber.ofNumber_of_toNumber (mapError_eq_ok_iff.mp hn)
  rw [Value.ty, readValue.eq_def]
  simp [Json.isNull, readHostNumber_eq, Except.map, hzero, Value.withPositiveZeros]

theorem readsBack_list {element : Ty} {items : List Value}
    (htys : ∀ item ∈ items, item.ty = element) (ih : ∀ item ∈ items, ReadsBack item) :
    ReadsBack (.list element items) := by
  intro json hjson
  obtain ⟨jsons, hjsons, rfl⟩ := map_eq_ok_iff.mp hjson
  have hread : eachItem CanonicalError.under (readValue element) 0 jsons =
      .ok (items.map Value.withPositiveZeros) := by
    rw [eachItem_eq_ok_iff, List.forall₂_map_right_iff]
    refine (forall₂_imp_of_mem (fun item hmem json hjson => ?_)
      (ofItems_eq_ok_iff.mp hjsons)).flip
    change readValue element json = _
    rw [← htys item hmem]
    exact ih item hmem json hjson
  have hbuilt : Value.ofItems element (items.map Value.withPositiveZeros) =
      .ok (Value.list element items).withPositiveZeros := by
    refine Value.ofItems_eq_ok_iff.mpr ⟨List.forall_mem_map.mpr fun item hmem => ?_, ?_⟩
    · rw [Value.ty_withPositiveZeros, htys item hmem]
    · rw [Value.withPositiveZeros, Value.itemsWithPositiveZeros_eq_map]
  rw [Value.ty, readValue.eq_def]
  simp only [Json.isNull, Bool.false_eq_true, if_false, Json.items?, require, Except.bind, hread,
    hbuilt, checked, Except.mapError]

theorem readsBack_map {element : Ty} {entries : List (String × Value)}
    (hordered : Record.Ordered entries) (htys : ∀ entry ∈ entries, entry.2.ty = element)
    (ih : ∀ entry ∈ entries, ReadsBack entry.2) : ReadsBack (.map element entries) := by
  intro json hjson
  obtain ⟨members, hmembers, rfl⟩ := map_eq_ok_iff.mp hjson
  have hread : eachEntry CanonicalError.under (readValue element) members =
      .ok (Record.mapValues Value.withPositiveZeros entries) := by
    rw [eachEntry_eq_ok_iff, Record.mapValues, List.forall₂_map_right_iff]
    refine (forall₂_imp_of_mem (fun entry hmem member hmember => ?_)
      (ofEntries_eq_ok_iff.mp hmembers)).flip
    refine ⟨hmember.1.symm, ?_⟩
    rw [← htys entry hmem]
    exact ih entry hmem member.2 hmember.2
  have hbuilt : Value.ofEntries element (Record.mapValues Value.withPositiveZeros entries) =
      .ok (Value.map element entries).withPositiveZeros := by
    refine Value.ofEntries_eq_ok_iff.mpr ⟨List.forall_mem_map.mpr fun entry hmem => ?_, ?_⟩
    · rw [Value.ty_withPositiveZeros, htys entry hmem]
    · rw [Value.withPositiveZeros, Value.entriesWithPositiveZeros_eq_mapValues]
  rw [Value.ty, readValue.eq_def]
  simp only [Json.isNull, Bool.false_eq_true, if_false, Json.members?, require, Except.bind,
    hread, hbuilt, checked, Except.mapError,
    Record.ofList_of_ordered (Record.ordered_mapValues _ hordered)]

theorem readsBack_tuple {items : List Value} (ih : ∀ item ∈ items, ReadsBack item) :
    ReadsBack (.tuple items) := by
  intro json hjson
  obtain ⟨jsons, hjsons, rfl⟩ := map_eq_ok_iff.mp hjson
  rw [ofItems_eq_ok_iff] at hjsons
  have hlength : jsons.length = (items.map Value.ty).length := by
    rw [List.length_map, hjsons.length_eq]
  have hread : readPositions (items.map Value.ty) 0 jsons =
      .ok (items.map Value.withPositiveZeros) := by
    rw [readPositions_eq_ok_iff hlength, List.forall₂_map_right_iff]
    exact forall₂_zip_map (forall₂_imp_of_mem ih hjsons)
  rw [Value.ty, Value.tys_eq_map, readValue.eq_def]
  simp only [Json.isNull, Bool.false_eq_true, if_false, Json.items?, require, Except.bind,
    if_pos hlength, hread, Except.map, Value.withPositiveZeros,
    Value.itemsWithPositiveZeros_eq_map]

theorem readsBack_object {attributes : List (String × Value)} (hordered : Record.Ordered attributes)
    (ih : ∀ entry ∈ attributes, ReadsBack entry.2) : ReadsBack (.object attributes) := by
  intro json hjson
  obtain ⟨members, hmembers, rfl⟩ := map_eq_ok_iff.mp hjson
  rw [ofEntries_eq_ok_iff] at hmembers
  have hlength : members.length = (Value.attributeTys attributes).length := by
    rw [Value.attributeTys_eq_mapValues, Record.mapValues, List.length_map, hmembers.length_eq]
  have hmembersOrdered := Record.ordered_of_keys_eq hordered
    (keys_eq_of_forall₂ (hmembers.imp fun _ _ h => h.1))
  have hread : readAttributes (Value.attributeTys attributes) members =
      .ok (Record.mapValues Value.withPositiveZeros attributes) := by
    rw [readAttributes_eq_ok_iff, Value.attributeTys_eq_mapValues, Record.mapValues,
      Record.mapValues, List.forall₂_map_right_iff, List.forall₂_map_left_iff,
      List.forall₂_same]
    intro entry hmem
    obtain ⟨member, hmember, hname, hjson⟩ := exists_of_mem_of_forall₂ hmembers hmem
    refine ⟨rfl, member.2, ?_, ih entry hmem member.2 hjson⟩
    rw [hname]
    exact (Record.lookup_eq_some_iff hmembersOrdered).mpr hmember
  rw [Value.ty, readValue.eq_def]
  simp only [Json.isNull, Bool.false_eq_true, if_false, Json.members?, require, Except.bind,
    if_pos hlength, hread, Except.map, Value.withPositiveZeros,
    Value.entriesWithPositiveZeros_eq_mapValues]

theorem readsBack {value : Value} (hvalue : value.WellFormed) : ReadsBack value := by
  induction value with
  | null | string | bool =>
    intro json hjson
    obtain rfl := Except.ok.inj hjson
    rw [Value.ty, readValue.eq_def]
    rfl
  | number n =>
    intro json hjson
    obtain rfl := Except.ok.inj hjson
    rw [Value.ty, readValue.eq_def]
    simp [Json.isNull, Except.map, Value.withPositiveZeros]
  | amount amount =>
    intro json hjson
    obtain rfl := Except.ok.inj hjson
    rw [Value.ty, readValue.eq_def]
    simp [Json.isNull, require, Except.map, Value.withPositiveZeros]
  | foreign capsule payload =>
    intro json hjson
    obtain rfl := Except.ok.inj hjson
    rw [Value.ty, readValue.eq_def]
    simp [Json.isNull, Except.map, Value.withPositiveZeros]
  | unknown ty =>
    intro json hjson
    cases hjson
  | hostNumber x => exact readsBack_hostNumber x
  | list element items ih =>
    rw [Value.wellFormed_list_iff] at hvalue
    exact readsBack_list hvalue.2.1 fun item hmem => ih item hmem (hvalue.2.2 item hmem)
  | map element entries ih =>
    rw [Value.wellFormed_map_iff] at hvalue
    exact readsBack_map hvalue.2.2.1 hvalue.2.1 fun entry hmem =>
      ih entry hmem (hvalue.2.2.2 entry hmem)
  | tuple items ih =>
    rw [Value.wellFormed_tuple_iff] at hvalue
    exact readsBack_tuple fun item hmem => ih item hmem (hvalue item hmem)
  | object attributes ih =>
    rw [Value.wellFormed_object_iff] at hvalue
    exact readsBack_object hvalue.1 fun entry hmem => ih entry hmem (hvalue.2 entry hmem)

/-- A well-formed value has a document exactly when nothing within is unknown, infinite or no
number. The type of the value is read back from the document, and under it the value itself with
positive zeros. -/
theorem document_roundTrip {value : Value} (hvalue : value.WellFormed) :
    ((∃ json, document value = .ok json) ↔
      ∀ path part, value.at? path = some part →
        (∀ ty, part ≠ .unknown ty) ∧ ∀ x, part = .hostNumber x → x.isFinite = true) ∧
    ∀ json, document value = .ok json →
      (json.member? "type").bind Ty.ofJson? = some value.ty ∧
      ∃ part, json.member? "value" = some part ∧ ofValue value = .ok part ∧
        readValue value.ty part = .ok value.withPositiveZeros ∧
        value.withPositiveZeros.rawEqual value = true := by
  constructor
  · rw [document, exists_map_eq_ok, ← isWritable_iff]
    exact isWritable_iff_forall_at? hvalue
  · intro json hjson
    obtain ⟨part, hpart, rfl⟩ := map_eq_ok_iff.mp hjson
    have hwritable : isWritable value = true := isWritable_iff.mpr ⟨part, hpart⟩
    refine ⟨?_, part, rfl, hpart, readsBack hvalue part hpart,
      rawEqual_withPositiveZeros hwritable⟩
    exact Ty.ofJson?_toJson (Value.wellFormed_ty hvalue)

/-- A negative zero within comes back as zero, and all else as it was. -/
theorem document_roundTrip_signedZero :
    let value := Value.object [("rate", .hostNumber (.finite true 0)),
      ("tags", .list .string [.null .string, .string "a"]), ("void", .null .dynamic)]
    value.WellFormed ∧ ∃ json part, document value = .ok json ∧
      (json.member? "type").bind Ty.ofJson? = some value.ty ∧ json.member? "value" = some part ∧
      readValue value.ty part = .ok (.object [("rate", .hostNumber (.finite false 0)),
        ("tags", .list .string [.null .string, .string "a"]), ("void", .null .dynamic)]) := by
  intro value
  have hvalue : value.WellFormed := by
    refine ⟨by decide, ?_⟩
    simp [Value.EntriesWellFormed, Value.WellFormed, Value.ItemsWellFormed, Ty.WellFormed, Value.ty]
  obtain ⟨json, hjson⟩ : ∃ json, document value = .ok json :=
    exists_map_eq_ok.mpr (isWritable_iff.mp rfl)
  obtain ⟨hty, part, hpart, -, hread, -⟩ := (document_roundTrip hvalue).2 json hjson
  exact ⟨hvalue, json, part, hjson, hty, hpart, hread⟩

end Canonical

end LedgerValue

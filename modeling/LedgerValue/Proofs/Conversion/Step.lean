import LedgerValue.Conversion.Basic
import LedgerValue.Proofs.Conversion.Leads

/-!
# One level of conversion

What `convert` does to a value in terms of `convert` on its parts. Where a collection leads to a
collection type its parts are converted and put together again, and this holds as well for a value
that has the type already (`convert_list`, `convert_map`, `convert_tuple`, `convert_object`).
-/

namespace LedgerValue

namespace Value

/-- The items of a known list or tuple. -/
def sequence? : Value → Option (List Value)
  | list _ items => some items
  | tuple items => some items
  | _ => none

/-- The entries of a known map or the attributes of a known object. -/
def named? : Value → Option (List (String × Value))
  | map _ entries => some entries
  | object attributes => some attributes
  | _ => none

theorem hasPayload_iff {value : Value} :
    value.hasPayload = true ↔ value.isKnown = true ∧ value.isNull = false := by
  cases value <;> simp [hasPayload, isKnown, isNull]

theorem exists_string_of_ty {value : Value} (hty : value.ty = .string)
    (hpayload : value.hasPayload = true) : ∃ text, value = .string text := by
  cases value <;> simp only [ty, reduceCtorEq] at hty
  case string text => exact ⟨text, rfl⟩
  all_goals cases hpayload

theorem wellFormed_items {value : Value} {items : List Value} (hvalue : value.WellFormed)
    (hitems : value.sequence? = some items) : ∀ item ∈ items, item.WellFormed := by
  cases value <;> simp only [sequence?, reduceCtorEq, Option.some.injEq] at hitems
  case list =>
    obtain rfl := hitems
    exact (wellFormed_list_iff.mp hvalue).2.2
  case tuple =>
    obtain rfl := hitems
    exact wellFormed_tuple_iff.mp hvalue

theorem wellFormed_entries {value : Value} {entries : List (String × Value)}
    (hvalue : value.WellFormed) (hentries : value.named? = some entries) :
    Record.Ordered entries ∧ ∀ entry ∈ entries, entry.2.WellFormed := by
  cases value <;> simp only [named?, reduceCtorEq, Option.some.injEq] at hentries
  case map =>
    obtain rfl := hentries
    exact (wellFormed_map_iff.mp hvalue).2.2
  case object =>
    obtain rfl := hentries
    exact wellFormed_object_iff.mp hvalue

end Value

namespace Conversion

open Rule

variable {value converted : Value} {target element : Ty} {items results : List Value}
  {entries : List (String × Value)}

theorem leads_of_convert (hconvert : convert value target = .ok converted) :
    Leads value.ty target := by
  rw [convert, byRule] at hconvert
  split at hconvert
  · rename_i heq
    exact Or.inl heq
  · split at hconvert
    · cases hconvert
    · rename_i hrule
      exact Or.inr (by rw [hrule]; rfl)

theorem convert_of_not_leads (hleads : ¬Leads value.ty target) :
    convert value target = .error (.here (unconvertible value.ty target)) := by
  obtain ⟨hne, hrule⟩ := not_or.mp hleads
  rw [convert, byRule, if_neg hne, Option.not_isSome_iff_eq_none.mp hrule]

@[simp]
theorem convert_dynamic (value : Value) : convert value .dynamic = .ok value := by
  rw [convert, byRule]
  split
  · rfl
  · rename_i hne
    rw [find?_dynamic hne]
    rfl

theorem guarded_unknown {source : Ty} (htarget : target ≠ .dynamic)
    (onPayload : Value → Converted Value) :
    guarded target (.unknown source) onPayload = .ok (.unknown target) := by
  unfold guarded
  split
  · exact absurd rfl htarget
  · rfl

theorem guarded_null {source : Ty} (htarget : target ≠ .dynamic)
    (onPayload : Value → Converted Value) :
    guarded target (.null source) onPayload = .ok (.null target) := by
  unfold guarded
  split
  · exact absurd rfl htarget
  · rfl

theorem guarded_payload (hpayload : value.hasPayload = true) (htarget : target ≠ .dynamic)
    (onPayload : Value → Converted Value) : guarded target value onPayload = onPayload value := by
  unfold guarded
  split
  · exact absurd rfl htarget
  · split
    · cases hpayload
    · cases hpayload
    · rfl

theorem convert_unknown {source : Ty} (hleads : Leads source target) (htarget : target ≠ .dynamic) :
    convert (.unknown source) target = .ok (.unknown target) := by
  rcases hleads with rfl | hrule
  · exact convert_of_ty_eq rfl
  · obtain ⟨rule, hrule⟩ := Option.isSome_iff_exists.mp hrule
    rw [convert_of_find?_eq_some (show find? (Value.unknown source).ty target = _ from hrule),
      Rule.apply, guarded_unknown htarget]

theorem convert_null {source : Ty} (hleads : Leads source target) (htarget : target ≠ .dynamic) :
    convert (.null source) target = .ok (.null target) := by
  rcases hleads with rfl | hrule
  · exact convert_of_ty_eq rfl
  · obtain ⟨rule, hrule⟩ := Option.isSome_iff_exists.mp hrule
    rw [convert_of_find?_eq_some (show find? (Value.null source).ty target = _ from hrule),
      Rule.apply, guarded_null htarget]

/-- Null and unknown values stay what they are, whatever type they take. -/
theorem state_of_convert (hconvert : convert value target = .ok converted)
    (hvacant : value.hasPayload = false) :
    converted.isKnown = value.isKnown ∧ converted.hasPayload = false := by
  have hleads := leads_of_convert hconvert
  by_cases hdynamic : target = .dynamic
  · subst hdynamic
    obtain rfl := Except.ok.inj ((convert_dynamic value).symm.trans hconvert)
    exact ⟨rfl, hvacant⟩
  · cases value
    case null =>
      obtain rfl := Except.ok.inj ((convert_null hleads hdynamic).symm.trans hconvert)
      exact ⟨rfl, rfl⟩
    case unknown =>
      obtain rfl := Except.ok.inj ((convert_unknown hleads hdynamic).symm.trans hconvert)
      exact ⟨rfl, rfl⟩
    all_goals cases hvacant

theorem hasPayload_of_convert (hconvert : convert value target = .ok converted)
    (hpayload : converted.hasPayload = true) : value.hasPayload = true := by
  cases hvalue : value.hasPayload with
  | true => rfl
  | false => exact absurd hpayload (by simp [(state_of_convert hconvert hvalue).2])

theorem isKnown_of_convert (hconvert : convert value target = .ok converted)
    (hknown : converted.isKnown = true) : value.isKnown = true := by
  cases hvalue : value.hasPayload with
  | true => exact (Value.hasPayload_iff.mp hvalue).1
  | false => rw [← (state_of_convert hconvert hvalue).1, hknown]

/-- The rule for the two types acts on a payload. -/
theorem convert_payload {rule : Rule} (hpayload : value.hasPayload = true)
    (htarget : target ≠ .dynamic) (hrule : find? value.ty target = some rule) :
    convert value target = onPayload target rule value := by
  rw [convert_of_find?_eq_some hrule, Rule.apply, guarded_payload hpayload htarget]

theorem commonTy_eq_ok_iff {common : Ty} {tys : List Ty} :
    commonTy element tys = .ok common ↔
      (∀ ty ∈ tys, ty = common) ∧ (tys = [] → common = element) := by
  cases tys with
  | nil => simp [commonTy, eq_comm]
  | cons first rest =>
    simp only [commonTy, List.all_eq_true, decide_eq_true_eq, List.forall_mem_cons, reduceCtorEq,
      false_imp_iff, and_true]
    split
    · rename_i hsame
      constructor
      · rintro heq
        obtain rfl := Except.ok.inj heq
        exact ⟨rfl, hsame⟩
      · rintro ⟨rfl, -⟩
        rfl
    · rename_i hdiffer
      constructor
      · rintro ⟨⟩
      · rintro ⟨rfl, hrest⟩
        exact absurd hrest hdiffer

theorem buildList_eq_ok_iff :
    buildList element items = .ok converted ↔
      ∃ common, (∀ item ∈ items, item.ty = common) ∧ (items = [] → common = element) ∧
        converted = .list common items := by
  simp only [buildList, bind_eq_ok_iff, mapError_eq_ok_iff, commonTy_eq_ok_iff,
    Value.ofItems_eq_ok_iff, List.forall_mem_map, List.map_eq_nil_iff]
  constructor
  · rintro ⟨common, ⟨htys, hnil⟩, -, rfl⟩
    exact ⟨common, htys, hnil, rfl⟩
  · rintro ⟨common, htys, hnil, rfl⟩
    exact ⟨common, ⟨htys, hnil⟩, htys, rfl⟩

theorem buildMap_eq_ok_iff :
    buildMap element entries = .ok converted ↔
      ∃ common, (∀ entry ∈ entries, entry.2.ty = common) ∧ (entries = [] → common = element) ∧
        converted = .map common entries := by
  simp only [buildMap, bind_eq_ok_iff, mapError_eq_ok_iff, commonTy_eq_ok_iff,
    Value.ofEntries_eq_ok_iff, List.forall_mem_map, List.map_eq_nil_iff]
  constructor
  · rintro ⟨common, ⟨htys, hnil⟩, -, rfl⟩
    exact ⟨common, htys, hnil, rfl⟩
  · rintro ⟨common, htys, hnil, rfl⟩
    exact ⟨common, ⟨htys, hnil⟩, htys, rfl⟩

theorem onPositions_eq_ok_iff {elements : List Ty} {position : Nat}
    (hlength : items.length = elements.length) :
    onPositions elements position items = .ok results ↔
      List.Forall₂ (fun (place : Ty × Value) result => convert place.2 place.1 = .ok result)
        (elements.zip items) results := by
  induction elements generalizing position items results with
  | nil => simp [onPositions, List.forall₂_nil_left_iff, eq_comm]
  | cons element elements ih =>
    cases items with
    | nil => cases hlength
    | cons item items =>
      simp only [onPositions, cons_eq_ok_iff, mapError_eq_ok_iff, ih (Nat.succ.inj hlength),
        List.zip_cons_cons, List.forall₂_cons_left_iff]
      rfl

theorem onAttributes_eq_ok_iff {wanted : List (String × Ty)} {others : List (String × Value)} :
    onAttributes wanted entries = .ok others ↔
      List.Forall₂ (fun declared other => declared.1 = other.1 ∧
        ∃ value, entries.lookup declared.1 = some value ∧
          convert value declared.2 = .ok other.2) wanted others := by
  induction wanted generalizing others with
  | nil => simp [onAttributes, List.forall₂_nil_left_iff, eq_comm]
  | cons declared rest ih =>
    obtain ⟨name, ty⟩ := declared
    rw [onAttributes, List.forall₂_cons_left_iff]
    cases hvalue : entries.lookup name with
    | none => simp
    | some value =>
      simp only [consNamed_eq_ok_iff, mapError_eq_ok_iff, ih, Option.some.injEq, exists_eq_left']
      rfl

theorem rule_of_leads (hleads : Leads value.ty target) (hne : value.ty ≠ target) :
    ∃ rule, find? value.ty target = some rule :=
  Option.isSome_iff_exists.mp (hleads.resolve_left hne)

theorem convert_list_self (hvalue : (Value.list element items).WellFormed) :
    (eachItem ConversionError.under (convert · element) 0 items).bind (buildList element) =
      .ok (.list element items) := by
  have hitems : eachItem ConversionError.under (convert · element) 0 items = .ok items :=
    eachItem_eq_ok_iff.mpr <| List.forall₂_same.mpr fun item hmem =>
      convert_of_ty_eq (hvalue.2.1 item hmem)
  rw [hitems]
  exact buildList_eq_ok_iff.mpr ⟨element, hvalue.2.1, fun _ => rfl, rfl⟩

theorem convert_map_self (hvalue : (Value.map element entries).WellFormed) :
    (eachEntry ConversionError.under (convert · element) entries).bind (buildMap element) =
      .ok (.map element entries) := by
  have hentries : eachEntry ConversionError.under (convert · element) entries = .ok entries :=
    eachEntry_eq_ok_iff.mpr <| List.forall₂_same.mpr fun entry hmem =>
      ⟨rfl, convert_of_ty_eq (hvalue.2.1 entry hmem)⟩
  rw [hentries]
  exact buildMap_eq_ok_iff.mpr ⟨element, hvalue.2.1, fun _ => rfl, rfl⟩

theorem onPositions_self (items : List Value) :
    onPositions (Value.tys items) 0 items = .ok items := by
  rw [Value.tys_eq_map, onPositions_eq_ok_iff (List.length_map Value.ty).symm]
  exact forall₂_zip_map (List.forall₂_same.mpr fun item _ => convert_of_ty_eq rfl)

theorem onAttributes_self (hordered : Record.Ordered entries) :
    onAttributes (Value.attributeTys entries) entries = .ok entries := by
  rw [Value.attributeTys_eq_mapValues, onAttributes_eq_ok_iff, Record.mapValues,
    List.forall₂_map_left_iff, List.forall₂_same]
  exact fun entry hmem =>
    ⟨rfl, entry.2, (Record.lookup_eq_some_iff hordered).mpr hmem, convert_of_ty_eq rfl⟩

theorem convert_list (hvalue : value.WellFormed) (hitems : value.sequence? = some items)
    (hleads : Leads value.ty (.list element)) :
    convert value (.list element) =
      (eachItem ConversionError.under (convert · element) 0 items).bind (buildList element) := by
  by_cases heq : value.ty = .list element
  · cases value <;> simp only [Value.sequence?, reduceCtorEq, Option.some.injEq] at hitems
    case list source _ =>
      obtain rfl := hitems
      obtain rfl := Ty.list.inj heq
      rw [convert_list_self hvalue]
      exact convert_of_ty_eq rfl
    case tuple => cases heq
  · obtain ⟨rule, hrule⟩ := rule_of_leads hleads heq
    cases value <;> simp only [Value.sequence?, reduceCtorEq, Option.some.injEq] at hitems
    case list =>
      obtain rfl := hitems
      obtain rfl : rule = .listToList := eq_of_find? hrule rfl
      rw [convert_payload rfl (by simp) hrule, onPayload.eq_def]
      rfl
    case tuple =>
      obtain rfl := hitems
      obtain rfl : rule = .tupleToList := eq_of_find? hrule rfl
      rw [convert_payload rfl (by simp) hrule, onPayload.eq_def]
      rfl

theorem convert_map (hvalue : value.WellFormed) (hentries : value.named? = some entries)
    (hleads : Leads value.ty (.map element)) :
    convert value (.map element) =
      (eachEntry ConversionError.under (convert · element) entries).bind (buildMap element) := by
  by_cases heq : value.ty = .map element
  · cases value <;> simp only [Value.named?, reduceCtorEq, Option.some.injEq] at hentries
    case map source _ =>
      obtain rfl := hentries
      obtain rfl := Ty.map.inj heq
      rw [convert_map_self hvalue]
      exact convert_of_ty_eq rfl
    case object => cases heq
  · obtain ⟨rule, hrule⟩ := rule_of_leads hleads heq
    cases value <;> simp only [Value.named?, reduceCtorEq, Option.some.injEq] at hentries
    case map =>
      obtain rfl := hentries
      obtain rfl : rule = .mapToMap := eq_of_find? hrule rfl
      rw [convert_payload rfl (by simp) hrule, onPayload.eq_def]
      rfl
    case object =>
      obtain rfl := hentries
      obtain rfl : rule = .objectToMap := eq_of_find? hrule rfl
      rw [convert_payload rfl (by simp) hrule, onPayload.eq_def]
      rfl

theorem convert_tuple {elements : List Ty} (hitems : value.sequence? = some items)
    (hleads : Leads value.ty (.tuple elements)) :
    convert value (.tuple elements) =
      (checkLength elements.length items).bind fun items =>
        (onPositions elements 0 items).map .tuple := by
  by_cases heq : value.ty = .tuple elements
  · cases value <;> simp only [Value.sequence?, reduceCtorEq, Option.some.injEq] at hitems
    case list => cases heq
    case tuple items =>
      obtain rfl := hitems
      obtain rfl := Ty.tuple.inj heq
      have hlength : items.length = (Value.tys items).length := by
        rw [Value.tys_eq_map, List.length_map]
      rw [checkLength, if_pos hlength]
      change _ = (onPositions (Value.tys items) 0 items).map Value.tuple
      rw [onPositions_self]
      exact convert_of_ty_eq rfl
  · obtain ⟨rule, hrule⟩ := rule_of_leads hleads heq
    cases value <;> simp only [Value.sequence?, reduceCtorEq, Option.some.injEq] at hitems
    case list =>
      obtain rfl := hitems
      obtain rfl : rule = .listToTuple := eq_of_find? hrule rfl
      rw [convert_payload rfl (by simp) hrule, onPayload.eq_def]
    case tuple =>
      obtain rfl := hitems
      obtain rfl : rule = .tupleToTuple := eq_of_find? hrule rfl
      rw [convert_payload rfl (by simp) hrule, onPayload.eq_def]

theorem convert_object {wanted : List (String × Ty)} (hordered : Record.Ordered entries)
    (hleads : Leads (Value.object entries).ty (.object wanted)) :
    convert (.object entries) (.object wanted) = (onAttributes wanted entries).map .object := by
  by_cases heq : (Value.object entries).ty = .object wanted
  · obtain rfl := Ty.object.inj heq
    rw [onAttributes_self hordered]
    exact convert_of_ty_eq rfl
  · obtain ⟨rule, hrule⟩ := rule_of_leads hleads heq
    obtain rfl : rule = .objectToObject := eq_of_find? hrule rfl
    rw [convert_payload rfl (by simp) hrule, onPayload.eq_def]

theorem ty_ne_dynamic (hpayload : value.hasPayload = true) : value.ty ≠ .dynamic := by
  cases value <;> simp only [Value.hasPayload, Bool.false_eq_true] at hpayload <;>
    simp [Value.ty]

theorem exists_sequence?_of_leads_list (hpayload : value.hasPayload = true)
    (hleads : Leads value.ty (.list element)) : ∃ items, value.sequence? = some items := by
  rcases leads_list_iff.mp hleads with hdynamic | ⟨item, hty, -⟩ | ⟨items, hty, -⟩
  · exact absurd hdynamic (ty_ne_dynamic hpayload)
  all_goals
    cases value <;> simp only [Value.ty, reduceCtorEq] at hty
    all_goals first | exact ⟨_, rfl⟩ | cases hpayload

theorem exists_sequence?_of_leads_tuple {elements : List Ty} (hpayload : value.hasPayload = true)
    (hleads : Leads value.ty (.tuple elements)) : ∃ items, value.sequence? = some items := by
  rcases leads_tuple_iff.mp hleads with hdynamic | ⟨items, hty, -⟩ | ⟨item, hty, -⟩
  · exact absurd hdynamic (ty_ne_dynamic hpayload)
  all_goals
    cases value <;> simp only [Value.ty, reduceCtorEq] at hty
    all_goals first | exact ⟨_, rfl⟩ | cases hpayload

theorem exists_named?_of_leads_map (hpayload : value.hasPayload = true)
    (hleads : Leads value.ty (.map element)) : ∃ entries, value.named? = some entries := by
  rcases leads_map_iff.mp hleads with hdynamic | ⟨entry, hty, -⟩ | ⟨attributes, hty, -⟩
  · exact absurd hdynamic (ty_ne_dynamic hpayload)
  all_goals
    cases value <;> simp only [Value.ty, reduceCtorEq] at hty
    all_goals first | exact ⟨_, rfl⟩ | cases hpayload

theorem exists_object_of_leads_object {wanted : List (String × Ty)}
    (hwanted : Record.Ordered wanted) (hpayload : value.hasPayload = true)
    (hleads : Leads value.ty (.object wanted)) : ∃ attributes, value = .object attributes := by
  rcases (leads_object_iff hwanted).mp hleads with hdynamic | ⟨attributes, hty, -⟩
  · exact absurd hdynamic (ty_ne_dynamic hpayload)
  · cases value <;> simp only [Value.ty, reduceCtorEq] at hty
    all_goals first | exact ⟨_, rfl⟩ | cases hpayload

theorem exists_lookup_of_leads_object {wanted : List (String × Ty)}
    (hwanted : Record.Ordered wanted) (hleads : Leads (Value.object entries).ty (.object wanted))
    {declared : String × Ty} (hmem : declared ∈ wanted) :
    ∃ found, entries.lookup declared.1 = some found := by
  rcases (leads_object_iff hwanted).mp hleads with hdynamic | ⟨attributes, hty, hfound⟩
  · cases hdynamic
  · obtain rfl := Ty.object.inj hty
    obtain ⟨found, hlookup, -⟩ := hfound declared hmem
    rw [Value.attributeTys_eq_mapValues, Record.lookup_mapValues, Option.map_eq_some_iff] at hlookup
    obtain ⟨part, hpart, -⟩ := hlookup
    exact ⟨part, hpart⟩

/-- The items of what leads to a list lead to its element type. -/
theorem leads_item_of_list (hvalue : value.WellFormed) (hitems : value.sequence? = some items)
    (hleads : Leads value.ty (.list element)) {item : Value} (hmem : item ∈ items) :
    Leads item.ty element := by
  cases value <;> simp only [Value.sequence?, reduceCtorEq, Option.some.injEq] at hitems
  case list source _ =>
    obtain rfl := hitems
    rcases leads_list_iff.mp hleads with hdynamic | ⟨_, hty, hpart⟩ | ⟨_, hty, -⟩
    · cases hdynamic
    · rw [hvalue.2.1 item hmem, Ty.list.inj hty]
      exact hpart
    · cases hty
  case tuple =>
    obtain rfl := hitems
    rcases leads_list_iff.mp hleads with hdynamic | ⟨_, hty, -⟩ | ⟨tys, hty, hparts⟩
    · cases hdynamic
    · cases hty
    · obtain rfl := Ty.tuple.inj hty
      exact hparts _ (by rw [Value.tys_eq_map]; exact List.mem_map_of_mem hmem)

/-- The entries of what leads to a map lead to its element type. -/
theorem leads_entry_of_map (hvalue : value.WellFormed) (hentries : value.named? = some entries)
    (hleads : Leads value.ty (.map element)) {entry : String × Value} (hmem : entry ∈ entries) :
    Leads entry.2.ty element := by
  cases value <;> simp only [Value.named?, reduceCtorEq, Option.some.injEq] at hentries
  case map source _ =>
    obtain rfl := hentries
    rcases leads_map_iff.mp hleads with hdynamic | ⟨_, hty, hpart⟩ | ⟨_, hty, -⟩
    · cases hdynamic
    · rw [hvalue.2.1 entry hmem, Ty.map.inj hty]
      exact hpart
    · cases hty
  case object =>
    obtain rfl := hentries
    rcases leads_map_iff.mp hleads with hdynamic | ⟨_, hty, -⟩ | ⟨tys, hty, hparts⟩
    · cases hdynamic
    · cases hty
    · obtain rfl := Ty.object.inj hty
      refine hparts (entry.1, entry.2.ty) ?_
      rw [Value.attributeTys_eq_mapValues]
      exact List.mem_map_of_mem hmem

/-- The items of what leads to a tuple lead to the types of their positions. -/
theorem leads_item_of_tuple {elements : List Ty} {index : Nat} {item : Value}
    (hvalue : value.WellFormed) (hitems : value.sequence? = some items)
    (hleads : Leads value.ty (.tuple elements)) (helement : elements[index]? = some element)
    (hitem : items[index]? = some item) : Leads item.ty element := by
  cases value <;> simp only [Value.sequence?, reduceCtorEq, Option.some.injEq] at hitems
  case list source _ =>
    obtain rfl := hitems
    rcases leads_tuple_iff.mp hleads with hdynamic | ⟨_, hty, -⟩ | ⟨_, hty, hparts⟩
    · cases hdynamic
    · cases hty
    · rw [hvalue.2.1 item (List.mem_of_getElem? hitem), Ty.list.inj hty]
      exact hparts element (List.mem_of_getElem? helement)
  case tuple =>
    obtain rfl := hitems
    rcases leads_tuple_iff.mp hleads with hdynamic | ⟨tys, hty, hparts⟩ | ⟨_, hty, -⟩
    · cases hdynamic
    · obtain rfl := Ty.tuple.inj hty
      rw [Value.tys_eq_map, List.forall₂_map_left_iff] at hparts
      have hpart := rel_getElem? hparts index
      rw [hitem, helement] at hpart
      cases hpart with
      | some hpart => exact hpart
    · cases hty

/-- The attributes of what leads to an object lead to the types that are wanted of them. -/
theorem leads_attribute_of_object {wanted : List (String × Ty)} (hwanted : Record.Ordered wanted)
    (hleads : Leads (Value.object entries).ty (.object wanted)) {declared : String × Ty}
    {found : Value} (hmem : declared ∈ wanted) (hfound : entries.lookup declared.1 = some found) :
    Leads found.ty declared.2 := by
  rcases (leads_object_iff hwanted).mp hleads with hdynamic | ⟨attributes, hty, hparts⟩
  · cases hdynamic
  · obtain rfl := Ty.object.inj hty
    obtain ⟨ty, hlookup, hpart⟩ := hparts declared hmem
    rw [Value.attributeTys_eq_mapValues, Record.lookup_mapValues, hfound] at hlookup
    obtain rfl := Option.some.inj hlookup
    exact hpart

/-- How a payload becomes a list. -/
theorem convert_list_inversion (hvalue : value.WellFormed) (hpayload : value.hasPayload = true)
    (hconvert : convert value (.list element) = .ok converted) :
    ∃ items results common, value.sequence? = some items ∧
      List.Forall₂ (fun item result => convert item element = .ok result) items results ∧
      (∀ result ∈ results, result.ty = common) ∧ (results = [] → common = element) ∧
      converted = .list common results := by
  have hleads := leads_of_convert hconvert
  obtain ⟨items, hitems⟩ := exists_sequence?_of_leads_list hpayload hleads
  rw [convert_list hvalue hitems hleads] at hconvert
  obtain ⟨results, hresults, hbuilt⟩ := bind_eq_ok_iff.mp hconvert
  obtain ⟨common, hcommon⟩ := buildList_eq_ok_iff.mp hbuilt
  exact ⟨items, results, common, hitems, eachItem_eq_ok_iff.mp hresults, hcommon⟩

/-- How a payload becomes a map. -/
theorem convert_map_inversion (hvalue : value.WellFormed) (hpayload : value.hasPayload = true)
    (hconvert : convert value (.map element) = .ok converted) :
    ∃ entries results common, value.named? = some entries ∧
      List.Forall₂ (fun entry result => entry.1 = result.1 ∧
        convert entry.2 element = .ok result.2) entries results ∧
      (∀ result ∈ results, result.2.ty = common) ∧ (results = [] → common = element) ∧
      converted = .map common results := by
  have hleads := leads_of_convert hconvert
  obtain ⟨entries, hentries⟩ := exists_named?_of_leads_map hpayload hleads
  rw [convert_map hvalue hentries hleads] at hconvert
  obtain ⟨results, hresults, hbuilt⟩ := bind_eq_ok_iff.mp hconvert
  obtain ⟨common, hcommon⟩ := buildMap_eq_ok_iff.mp hbuilt
  exact ⟨entries, results, common, hentries, eachEntry_eq_ok_iff.mp hresults, hcommon⟩

/-- How a payload becomes a tuple. -/
theorem convert_tuple_inversion {elements : List Ty} (hpayload : value.hasPayload = true)
    (hconvert : convert value (.tuple elements) = .ok converted) :
    ∃ items results, value.sequence? = some items ∧ items.length = elements.length ∧
      List.Forall₂ (fun (place : Ty × Value) result => convert place.2 place.1 = .ok result)
        (elements.zip items) results ∧
      converted = .tuple results := by
  have hleads := leads_of_convert hconvert
  obtain ⟨items, hitems⟩ := exists_sequence?_of_leads_tuple hpayload hleads
  rw [convert_tuple hitems hleads, checkLength] at hconvert
  split at hconvert
  · rename_i hlength
    obtain ⟨results, hresults, rfl⟩ := map_eq_ok_iff.mp hconvert
    exact ⟨items, results, hitems, hlength, (onPositions_eq_ok_iff hlength).mp hresults, rfl⟩
  · cases hconvert

/-- How a payload becomes an object. -/
theorem convert_object_inversion {wanted : List (String × Ty)} (hwanted : Record.Ordered wanted)
    (hvalue : value.WellFormed) (hpayload : value.hasPayload = true)
    (hconvert : convert value (.object wanted) = .ok converted) :
    ∃ attributes results, value = .object attributes ∧
      List.Forall₂ (fun declared result => declared.1 = result.1 ∧
        ∃ found, attributes.lookup declared.1 = some found ∧
          convert found declared.2 = .ok result.2) wanted results ∧
      converted = .object results := by
  have hleads := leads_of_convert hconvert
  obtain ⟨attributes, rfl⟩ := exists_object_of_leads_object hwanted hpayload hleads
  rw [convert_object hvalue.1 hleads] at hconvert
  obtain ⟨results, hresults, rfl⟩ := map_eq_ok_iff.mp hconvert
  exact ⟨attributes, results, rfl, onAttributes_eq_ok_iff.mp hresults, rfl⟩

section Agreement

variable {wanted : List (String × Ty)} {others : List (String × Value)}

theorem onAttributes_congr
    (hsame : ∀ declared ∈ wanted, others.lookup declared.1 = entries.lookup declared.1) :
    onAttributes wanted others = onAttributes wanted entries := by
  induction wanted with
  | nil => rfl
  | cons declared rest ih =>
    obtain ⟨name, ty⟩ := declared
    obtain ⟨hname, hrest⟩ := List.forall_mem_cons.mp hsame
    rw [onAttributes, onAttributes, show others.lookup name = entries.lookup name from hname,
      ih hrest]

theorem leads_object_congr (hwanted : Record.Ordered wanted)
    (hsame : ∀ declared ∈ wanted, others.lookup declared.1 = entries.lookup declared.1)
    (hleads : Leads (Value.object entries).ty (.object wanted)) :
    Leads (Value.object others).ty (.object wanted) := by
  obtain hdynamic | ⟨attributes, hty, hfound⟩ := (leads_object_iff hwanted).mp hleads
  · cases hdynamic
  · obtain rfl := Ty.object.inj hty
    refine (leads_object_iff hwanted).mpr (Or.inr ⟨_, rfl, fun declared hmem => ?_⟩)
    obtain ⟨found, hlookup, hpart⟩ := hfound declared hmem
    refine ⟨found, ?_, hpart⟩
    rw [Value.attributeTys_eq_mapValues, Record.lookup_mapValues] at hlookup ⊢
    rw [hsame declared hmem, hlookup]

/-- Where an object leads to an object type, nothing but the wanted attributes has a say in what it
becomes. -/
theorem convert_object_congr (hwanted : Record.Ordered wanted) (hentries : Record.Ordered entries)
    (hothers : Record.Ordered others)
    (hsame : ∀ declared ∈ wanted, others.lookup declared.1 = entries.lookup declared.1)
    (hleads : Leads (Value.object entries).ty (.object wanted)) :
    convert (.object others) (.object wanted) = convert (.object entries) (.object wanted) := by
  rw [convert_object hothers (leads_object_congr hwanted hsame hleads),
    convert_object hentries hleads, onAttributes_congr hsame]

end Agreement

theorem ty_of_convert_scalar (htarget : target.IsScalar) (hpayload : value.hasPayload = true)
    (hconvert : convert value target = .ok converted) :
    converted.ty = target ∧ converted.hasPayload = true := by
  by_cases heq : value.ty = target
  · rw [convert_of_ty_eq heq] at hconvert
    obtain rfl := Except.ok.inj hconvert
    exact ⟨heq, hpayload⟩
  · obtain ⟨rule, hrule⟩ := rule_of_leads (leads_of_convert hconvert) heq
    rw [convert_payload hpayload (by rintro rfl; exact htarget) hrule, onPayload.eq_def] at hconvert
    rw [find?.eq_def, if_neg heq] at hrule
    cases target <;> try exact htarget.elim
    case string =>
      cases value <;> simp only [Value.ty, reduceCtorEq, Option.some.injEq] at hrule
      case null | unknown => cases hpayload
      all_goals
        subst hrule
        obtain rfl := Except.ok.inj hconvert
        exact ⟨rfl, rfl⟩
    case bool | hostNumber =>
      cases value <;> simp only [Value.ty, reduceCtorEq, Option.some.injEq] at hrule
      case null | unknown => cases hpayload
      case string =>
        subst hrule
        obtain ⟨result, -, rfl⟩ := map_eq_ok_iff.mp hconvert
        exact ⟨rfl, rfl⟩
    case capsule kind =>
      cases kind with
      | number =>
        obtain ⟨source, -, rfl⟩ := Option.map_eq_some_iff.mp hrule
        obtain ⟨n, -, rfl⟩ := map_eq_ok_iff.mp hconvert
        exact ⟨rfl, rfl⟩
      | assetAmount | foreign =>
        cases value <;> simp only [Value.ty, reduceCtorEq] at hrule
        all_goals cases hpayload

/-- A payload becomes a payload. -/
theorem hasPayload_convert (hvalue : value.WellFormed) (htarget : target.WellFormed)
    (hpayload : value.hasPayload = true) (hconvert : convert value target = .ok converted) :
    converted.hasPayload = true := by
  cases target with
  | dynamic =>
    obtain rfl := Except.ok.inj ((convert_dynamic value).symm.trans hconvert)
    exact hpayload
  | string | bool | hostNumber | capsule kind =>
    exact (ty_of_convert_scalar (by exact trivial) hpayload hconvert).2
  | list element =>
    obtain ⟨items, results, common, -, -, -, -, rfl⟩ :=
      convert_list_inversion hvalue hpayload hconvert
    rfl
  | map element =>
    obtain ⟨entries, results, common, -, -, -, -, rfl⟩ :=
      convert_map_inversion hvalue hpayload hconvert
    rfl
  | tuple elements =>
    obtain ⟨items, results, -, -, -, rfl⟩ := convert_tuple_inversion hpayload hconvert
    rfl
  | object wanted =>
    obtain ⟨attributes, results, -, -, rfl⟩ :=
      convert_object_inversion htarget.1 hvalue hpayload hconvert
    rfl

/-- What is known stays known, and what is not known stays so. -/
theorem isKnown_convert (hvalue : value.WellFormed) (htarget : target.WellFormed)
    (hconvert : convert value target = .ok converted) : converted.isKnown = value.isKnown := by
  cases hpayload : value.hasPayload with
  | true =>
    have hconverted := hasPayload_convert hvalue htarget hpayload hconvert
    rw [(Value.hasPayload_iff.mp hpayload).1, (Value.hasPayload_iff.mp hconverted).1]
  | false => exact (state_of_convert hconvert hpayload).1

end Conversion

end LedgerValue

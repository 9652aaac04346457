import LedgerValue.Proofs.Conversion.Step
import LedgerValue.Proofs.Value.Part

/-!
# Conversion from the dynamic type

Null and unknown values of the dynamic type take every type but that of the exact numbers, to which
nothing leads but its own sources. The same goes for the components of collections. Main statement:
`convert_fromDynamic`.
-/

namespace LedgerValue

namespace Ty

/-- The types of the direct parts. -/
def components : Ty → List Ty
  | list element => [element]
  | map element => [element]
  | tuple elements => elements
  | object attributes => attributes.map Prod.snd
  | _ => []

/-- Collections of the same kind, and tuples of the same length and objects of the same names. -/
def SameShape : Ty → Ty → Prop
  | list _, list _ => True
  | map _, map _ => True
  | tuple ss, tuple ts => ss.length = ts.length
  | object ss, object ts => ss.map Prod.fst = ts.map Prod.fst
  | _, _ => False

end Ty

namespace Value

/-- The direct parts of a known collection. -/
def components : Value → List Value
  | list _ items => items
  | map _ entries => entries.map Prod.snd
  | tuple items => items
  | object attributes => attributes.map Prod.snd
  | _ => []

end Value

namespace Conversion

open Rule

variable {value part : Value} {source target ty element : Ty} {items : List Value}
  {entries : List (String × Value)} {elements : List Ty} {wanted : List (String × Ty)}

/-- The value is null or unknown, and of the dynamic type. -/
def IsVacant (value : Value) : Prop := value = .null .dynamic ∨ value = .unknown .dynamic

theorem leads_from_dynamic_iff : Leads .dynamic target ↔ target ≠ .number := by
  constructor
  · rintro hleads rfl
    rcases hleads with heq | hrule
    · cases heq
    · exact absurd hrule (by decide)
  · intro htarget
    by_cases hdynamic : target = .dynamic
    · exact Or.inl hdynamic.symm
    · refine Or.inr ?_
      rw [find?.eq_def, if_neg (Ne.symm hdynamic)]
      cases target with
      | capsule kind =>
        cases kind with
        | number => exact absurd rfl htarget
        | assetAmount | foreign => rfl
      | _ => rfl

theorem exists_convert_of_isVacant (hvacant : IsVacant part) (hty : ty ≠ .number) :
    ∃ result, convert part ty = .ok result ∧ result.ty = ty := by
  have hleads : Leads .dynamic ty := leads_from_dynamic_iff.mpr hty
  by_cases hdynamic : ty = .dynamic
  · refine ⟨part, hdynamic ▸ convert_dynamic part, ?_⟩
    rcases hvacant with rfl | rfl <;> exact hdynamic.symm
  · rcases hvacant with rfl | rfl
    · exact ⟨.null ty, convert_null hleads hdynamic, rfl⟩
    · exact ⟨.unknown ty, convert_unknown hleads hdynamic, rfl⟩

theorem forall₂_leads_from_dynamic_iff {sources : List Ty}
    (hlength : sources.length = elements.length) (hdynamic : ∀ ty ∈ sources, ty = .dynamic) :
    List.Forall₂ Leads sources elements ↔ ∀ ty ∈ elements, ty ≠ .number := by
  constructor
  · intro hleads ty hmem
    obtain ⟨item, hitem, hitemLeads⟩ := exists_of_mem_of_forall₂ hleads.flip hmem
    rw [hdynamic item hitem] at hitemLeads
    exact leads_from_dynamic_iff.mp hitemLeads
  · intro hnumber
    refine List.forall₂_iff_zip.mpr ⟨hlength, fun {item ty} hmem => ?_⟩
    obtain ⟨hitem, hty⟩ := List.of_mem_zip hmem
    rw [hdynamic item hitem]
    exact leads_from_dynamic_iff.mpr (hnumber ty hty)

theorem exists_lookup_of_keys_eq {attributes : List (String × Ty)}
    (hkeys : attributes.map Prod.fst = wanted.map Prod.fst) {declared : String × Ty}
    (hmem : declared ∈ wanted) : ∃ found, attributes.lookup declared.1 = some found := by
  refine Record.exists_lookup_of_mem_keys ?_
  rw [hkeys]
  exact List.mem_map_of_mem hmem

/-- A collection type over the dynamic type leads to each of the same shape that has no exact
numbers for components. -/
theorem leads_of_sameShape_iff (hsource : source.WellFormed) (hshape : source.SameShape target)
    (hdynamic : ∀ ty ∈ source.components, ty = .dynamic) :
    Leads source target ↔ ∀ ty ∈ target.components, ty ≠ .number := by
  cases source <;> cases target <;> simp only [Ty.SameShape] at hshape
  case list.list item element =>
    obtain rfl := hdynamic item List.mem_cons_self
    simp [leads_list_iff, leads_from_dynamic_iff, Ty.components]
  case map.map entry element =>
    obtain rfl := hdynamic entry List.mem_cons_self
    simp [leads_map_iff, leads_from_dynamic_iff, Ty.components]
  case tuple.tuple items elements =>
    have hitems := forall₂_leads_from_dynamic_iff hshape hdynamic
    simpa [leads_tuple_iff, Ty.components] using hitems
  case object.object attributes wanted =>
    have hwanted : Record.Ordered wanted := Record.ordered_of_keys_eq hsource.1 hshape
    rw [leads_object_iff hwanted, Ty.components, List.forall_mem_map]
    simp only [reduceCtorEq, Ty.object.injEq, exists_eq_left', false_or]
    refine forall₂_congr fun declared hmem => ?_
    obtain ⟨found, hfound⟩ := exists_lookup_of_keys_eq hshape hmem
    have htype : found = .dynamic :=
      hdynamic found (List.mem_map_of_mem (Record.mem_of_lookup hfound))
    rw [hfound, htype]
    simp [leads_from_dynamic_iff]

theorem unconvertible_of_sameShape (hshape : source.SameShape target) :
    unconvertible source target = .mismatch source target := by
  cases source <;> cases target <;> simp only [Ty.SameShape] at hshape
  case object.object attributes wanted =>
    have hnone : wanted.find? (fun entry => (attributes.lookup entry.1).isNone) = none := by
      refine List.find?_eq_none.mpr fun declared hmem => ?_
      obtain ⟨found, hfound⟩ := exists_lookup_of_keys_eq hshape hmem
      simp [hfound]
    rw [unconvertible, hnone]
  all_goals rfl

theorem convert_list_of_isVacant (hvalue : (Value.list source items).WellFormed)
    (hvacant : ∀ item ∈ items, IsVacant item) (helement : element ≠ .number)
    (hleads : Leads (.list source) (.list element)) :
    ∃ converted, convert (.list source items) (.list element) = .ok converted ∧
      converted.ty = .list element := by
  obtain ⟨results, hresults⟩ := exists_forall₂ fun item hmem =>
    exists_convert_of_isVacant (hvacant item hmem) helement
  have hitems : eachItem ConversionError.under (convert · element) 0 items = .ok results :=
    eachItem_eq_ok_iff.mpr (hresults.imp fun _ _ hresult => hresult.1)
  have htys : ∀ result ∈ results, result.ty = element := fun result hmem => by
    obtain ⟨item, -, -, hty⟩ := exists_of_mem_of_forall₂ hresults.flip hmem
    exact hty
  refine ⟨.list element results, ?_, rfl⟩
  rw [convert_list hvalue rfl hleads]
  exact bind_eq_ok_iff.mpr
    ⟨results, hitems, buildList_eq_ok_iff.mpr ⟨element, htys, fun _ => rfl, rfl⟩⟩

theorem convert_map_of_isVacant (hvalue : (Value.map source entries).WellFormed)
    (hvacant : ∀ entry ∈ entries, IsVacant entry.2) (helement : element ≠ .number)
    (hleads : Leads (.map source) (.map element)) :
    ∃ converted, convert (.map source entries) (.map element) = .ok converted ∧
      converted.ty = .map element := by
  have hconvert : ∀ entry ∈ entries, ∃ result : String × Value,
      (entry.1 = result.1 ∧ convert entry.2 element = .ok result.2) ∧ result.2.ty = element := by
    intro entry hmem
    obtain ⟨result, hresult, hty⟩ := exists_convert_of_isVacant (hvacant entry hmem) helement
    exact ⟨(entry.1, result), ⟨rfl, hresult⟩, hty⟩
  obtain ⟨results, hresults⟩ := exists_forall₂ hconvert
  have hentries : eachEntry ConversionError.under (convert · element) entries = .ok results :=
    eachEntry_eq_ok_iff.mpr (hresults.imp fun _ _ hresult => hresult.1)
  have htys : ∀ result ∈ results, result.2.ty = element := fun result hmem => by
    obtain ⟨entry, -, -, hty⟩ := exists_of_mem_of_forall₂ hresults.flip hmem
    exact hty
  refine ⟨.map element results, ?_, rfl⟩
  rw [convert_map hvalue rfl hleads]
  exact bind_eq_ok_iff.mpr
    ⟨results, hentries, buildMap_eq_ok_iff.mpr ⟨element, htys, fun _ => rfl, rfl⟩⟩

theorem convert_tuple_of_isVacant (hvacant : ∀ item ∈ items, IsVacant item)
    (helements : ∀ element ∈ elements, element ≠ .number) (hlength : items.length = elements.length)
    (hleads : Leads (Value.tuple items).ty (.tuple elements)) :
    ∃ converted, convert (.tuple items) (.tuple elements) = .ok converted ∧
      converted.ty = .tuple elements := by
  have hconvert : ∀ place ∈ elements.zip items, ∃ result,
      convert place.2 place.1 = .ok result ∧ result.ty = place.1 := by
    intro place hmem
    obtain ⟨helement, hitem⟩ := List.of_mem_zip hmem
    exact exists_convert_of_isVacant (hvacant place.2 hitem) (helements place.1 helement)
  obtain ⟨results, hresults⟩ := exists_forall₂ hconvert
  have hitems : onPositions elements 0 items = .ok results :=
    (onPositions_eq_ok_iff hlength).mpr (hresults.imp fun _ _ hresult => hresult.1)
  have htys : List.Forall₂ (fun element result => result.ty = element) elements results :=
    (forall₂_of_zip hlength hresults).imp fun _ _ hresult => by
      obtain ⟨item, -, -, hty⟩ := hresult
      exact hty
  refine ⟨.tuple results, ?_, Value.ty_tuple htys⟩
  rw [convert_tuple rfl hleads, checkLength, if_pos hlength]
  exact map_eq_ok_iff.mpr ⟨results, hitems, rfl⟩

theorem convert_object_of_isVacant (hordered : Record.Ordered entries)
    (hwanted : Record.Ordered wanted) (hvacant : ∀ entry ∈ entries, IsVacant entry.2)
    (hnumber : ∀ declared ∈ wanted, declared.2 ≠ .number)
    (hleads : Leads (Value.object entries).ty (.object wanted)) :
    ∃ converted, convert (.object entries) (.object wanted) = .ok converted ∧
      converted.ty = .object wanted := by
  have hconvert : ∀ declared ∈ wanted, ∃ result : String × Value,
      (declared.1 = result.1 ∧ ∃ found, entries.lookup declared.1 = some found ∧
        convert found declared.2 = .ok result.2) ∧ result.2.ty = declared.2 := by
    intro declared hmem
    obtain ⟨found, hfound⟩ := exists_lookup_of_leads_object hwanted hleads hmem
    obtain ⟨result, hresult, hty⟩ := exists_convert_of_isVacant
      (hvacant _ (Record.mem_of_lookup hfound)) (hnumber declared hmem)
    exact ⟨(declared.1, result), ⟨rfl, found, hfound, hresult⟩, hty⟩
  obtain ⟨results, hresults⟩ := exists_forall₂ hconvert
  have hattributes : onAttributes wanted entries = .ok results :=
    onAttributes_eq_ok_iff.mpr (hresults.imp fun _ _ hresult => hresult.1)
  have hty : (Value.object results).ty = .object wanted :=
    Value.ty_object (hresults.imp fun _ _ hresult => ⟨hresult.1.1, hresult.2⟩)
  refine ⟨.object results, ?_, hty⟩
  rw [convert_object hordered hleads]
  exact map_eq_ok_iff.mpr ⟨results, hattributes, rfl⟩

theorem ty_of_isVacant (hvacant : IsVacant value) : value.ty = .dynamic := by
  rcases hvacant with rfl | rfl <;> rfl

/-- A collection of vacant components is over the dynamic type, unless it is an empty list or map
declared over some other one. -/
theorem dynamic_of_isVacant (hvalue : value.WellFormed)
    (hvacant : ∀ part ∈ value.components, IsVacant part)
    (hempty : value.components = [] → ∀ ty ∈ value.ty.components, ty = .dynamic) :
    ∀ ty ∈ value.ty.components, ty = .dynamic := by
  cases value with
  | null | unknown => exact hempty rfl
  | string | bool | hostNumber | number | amount | foreign => exact List.forall_mem_nil _
  | list source items =>
    cases items with
    | nil => exact hempty rfl
    | cons item rest =>
      refine List.forall_mem_singleton.mpr ?_
      rw [← hvalue.2.1 item List.mem_cons_self]
      exact ty_of_isVacant (hvacant item List.mem_cons_self)
  | map source entries =>
    cases entries with
    | nil => exact hempty rfl
    | cons entry rest =>
      refine List.forall_mem_singleton.mpr ?_
      rw [← hvalue.2.1 entry List.mem_cons_self]
      exact ty_of_isVacant (hvacant entry.2 List.mem_cons_self)
  | tuple items =>
    rw [Value.ty, Value.tys_eq_map, Ty.components]
    exact List.forall_mem_map.mpr fun item hmem => ty_of_isVacant (hvacant item hmem)
  | object entries =>
    rw [Value.ty, Value.attributeTys_eq_mapValues, Ty.components, Record.mapValues, List.map_map]
    exact List.forall_mem_map.mpr fun entry hmem =>
      ty_of_isVacant (hvacant entry.2 (List.mem_map_of_mem hmem))

theorem convert_of_isVacant (hvalue : value.WellFormed) (hshape : value.ty.SameShape target)
    (hvacant : ∀ part ∈ value.components, IsVacant part)
    (hnumber : ∀ ty ∈ target.components, ty ≠ .number) (hleads : Leads value.ty target) :
    ∃ converted, convert value target = .ok converted ∧ converted.ty = target := by
  have hdynamic : target ≠ .dynamic := by
    rintro rfl
    cases value <;> simp [Value.ty, Ty.SameShape] at hshape
  cases value
  case null => exact ⟨.null target, convert_null hleads hdynamic, rfl⟩
  case unknown => exact ⟨.unknown target, convert_unknown hleads hdynamic, rfl⟩
  all_goals cases target <;> simp only [Value.ty, Ty.SameShape] at hshape
  case list.list =>
    exact convert_list_of_isVacant hvalue hvacant (hnumber _ List.mem_cons_self) hleads
  case map.map =>
    exact convert_map_of_isVacant hvalue (List.forall_mem_map.mp hvacant)
      (hnumber _ List.mem_cons_self) hleads
  case tuple.tuple =>
    rw [Value.tys_eq_map, List.length_map] at hshape
    exact convert_tuple_of_isVacant hvacant hnumber hshape hleads
  case object.object entries wanted =>
    have hwanted := Record.ordered_of_keys_eq (Value.wellFormed_ty hvalue).1 hshape
    have hdeclared : ∀ declared ∈ wanted, declared.2 ≠ .number := fun declared hmem =>
      hnumber declared.2 (List.mem_map_of_mem hmem)
    exact convert_object_of_isVacant hvalue.1 hwanted (List.forall_mem_map.mp hvacant) hdeclared
      hleads

/-- Null and unknown values of the dynamic type take every type but that of the exact numbers, to
which no rule leads. A collection of such components takes every type of its shape without exact
numbers for components, and no rule leads to the others. -/
theorem convert_fromDynamic (target : Ty) :
    (target ≠ .number → convert (.null .dynamic) target = .ok (.null target) ∧
      convert (.unknown .dynamic) target = .ok (.unknown target)) ∧
    (∀ value, IsVacant value →
      convert value .number = .error (.here (.mismatch .dynamic .number))) ∧
    ∀ value : Value, value.WellFormed → value.ty.SameShape target →
      (∀ part ∈ value.components, IsVacant part) →
      (value.components = [] → ∀ ty ∈ value.ty.components, ty = .dynamic) →
      ((∀ ty ∈ target.components, ty ≠ .number) →
        ∃ converted, convert value target = .ok converted ∧ converted.ty = target) ∧
      ((∃ ty ∈ target.components, ty = .number) →
        convert value target = .error (.here (.mismatch value.ty target))) := by
  refine ⟨fun htarget => ?_, fun value hvacant => ?_, fun value hvalue hshape hvacant hempty => ?_⟩
  · have hleads : Leads .dynamic target := leads_from_dynamic_iff.mpr htarget
    by_cases hdynamic : target = .dynamic
    · subst hdynamic
      exact ⟨convert_dynamic _, convert_dynamic _⟩
    · exact ⟨convert_null hleads hdynamic, convert_unknown hleads hdynamic⟩
  · rcases hvacant with rfl | rfl <;> rfl
  · have hdynamic := dynamic_of_isVacant hvalue hvacant hempty
    have hleads := leads_of_sameShape_iff (Value.wellFormed_ty hvalue) hshape hdynamic
    refine ⟨fun hnumber => ?_, fun ⟨ty, hmem, hty⟩ => ?_⟩
    · exact convert_of_isVacant hvalue hshape hvacant hnumber (hleads.mpr hnumber)
    · rw [convert_of_not_leads fun hled => hleads.mp hled ty hmem hty,
        unconvertible_of_sameShape hshape]

/-- A null and an unknown attribute become a truth value and a list. -/
theorem convert_fromDynamic_object :
    let value := Value.object [("flag", .null .dynamic), ("tags", .unknown .dynamic)]
    let target := Ty.object [("flag", .bool), ("tags", .list .string)]
    target ≠ .number ∧ IsVacant (.unknown .dynamic) ∧ value.WellFormed ∧
      value.ty.SameShape target ∧ (∀ part ∈ value.components, IsVacant part) ∧
      (∀ ty ∈ target.components, ty ≠ .number) ∧
      convert (.null .dynamic) target = .ok (.null target) ∧
      convert (.unknown .dynamic) .number = .error (.here (.mismatch .dynamic .number)) ∧
      ∃ converted, convert value target = .ok converted ∧ converted.ty = target := by
  intro value target
  have htarget : target ≠ .number := by decide
  have hvalue : value.WellFormed := by
    refine ⟨by decide, ?_⟩
    simp [Value.EntriesWellFormed, Value.WellFormed, Ty.WellFormed]
  have hshape : value.ty.SameShape target := rfl
  have hvacant : ∀ part ∈ value.components, IsVacant part := by
    simp [value, Value.components, IsVacant]
  have hnumber : ∀ ty ∈ target.components, ty ≠ .number := by decide
  have hempty : value.components = [] → ∀ ty ∈ value.ty.components, ty = .dynamic := nofun
  have hunknown : IsVacant (.unknown .dynamic) := Or.inr rfl
  obtain ⟨hpart, hrefused, hwhole⟩ := convert_fromDynamic target
  exact ⟨htarget, hunknown, hvalue, hshape, hvacant, hnumber, (hpart htarget).1,
    hrefused (.unknown .dynamic) hunknown, (hwhole value hvalue hshape hvacant hempty).1 hnumber⟩

/-- A null of the dynamic type is no exact number, neither by itself nor as a component, and an
empty list need not be one over the dynamic type. -/
theorem convert_fromDynamic_mismatch :
    convert (.null .dynamic) .number = .error (.here (.mismatch .dynamic .number)) ∧
      convert (.list .dynamic [.null .dynamic]) (.list .number) =
        .error (.here (.mismatch (.list .dynamic) (.list .number))) ∧
      convert (.list .string []) (.list .assetAmount) =
        .error (.here (.mismatch (.list .string) (.list .assetAmount))) :=
  ⟨rfl, rfl, rfl⟩

end Conversion

end LedgerValue

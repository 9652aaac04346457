import LedgerValue.Proofs.Conversion.Soundness
import LedgerValue.Proofs.Value.Part

/-!
# Conversion to a looser type

A type is loosened by putting the dynamic type in place of some of its parts. A value then comes out
with types read off what it holds, and what holds nothing, an empty list say, takes the loosened
type itself. Elements that had one type may so come out with different ones, which no list or map
takes. Main statement: this is the only way in which a value fails to take a looser type
(`convert_loosened`).
-/

namespace LedgerValue

namespace Ty

variable {source target part found element : Ty} {step : Step}

theorem wellFormed_of_conforms (hsource : source.WellFormed) (hconforms : source.Conforms target) :
    target.WellFormed := by
  induction target generalizing source with
  | string | bool | hostNumber | capsule | dynamic => trivial
  | list element ih | map element ih =>
    cases source <;> simp only [Conforms] at hconforms
    refine ih ?_ hconforms
    exact hsource
  | tuple elements ih =>
    cases source <;> simp only [Conforms, elementsConform_iff] at hconforms
    refine elementsWellFormed_iff.mpr fun element hmem => ?_
    obtain ⟨item, hitem, hconforms⟩ := exists_of_mem_of_forall₂ hconforms.flip hmem
    exact ih element hmem (elementsWellFormed_iff.mp hsource item hitem) hconforms
  | object wanted ih =>
    cases source <;> simp only [Conforms, attributesConform_iff] at hconforms
    have hkeys := keys_eq_of_forall₂ (hconforms.imp fun _ _ h => h.1)
    refine ⟨Record.ordered_of_keys_eq hsource.1 hkeys, ?_⟩
    refine attributesWellFormed_iff.mpr fun declared hmem => ?_
    obtain ⟨entry, hentry, -, hconforms⟩ := exists_of_mem_of_forall₂ hconforms.flip hmem
    exact ih declared hmem (attributesWellFormed_iff.mp hsource.2 entry hentry) hconforms

theorem conforms_part? (hconforms : source.Conforms target) (hpart : source.part? step = some part)
    (hfound : target.part? step = some found) : part.Conforms found := by
  cases target <;> cases step <;> simp only [part?, reduceCtorEq] at hfound <;>
    cases source <;> simp only [Conforms] at hconforms <;> rw [part?] at hpart
  case list.position.list | map.key.map | map.member.map =>
    obtain rfl := Option.some.inj hpart
    obtain rfl := Option.some.inj hfound
    exact hconforms
  case tuple.position.tuple =>
    rename_i index _
    have hrelated := rel_getElem? (elementsConform_iff.mp hconforms) index
    rw [hpart, hfound] at hrelated
    cases hrelated with
    | some hconforms => exact hconforms
  case object.key.object | object.member.object =>
    rename_i name _
    have hrelated := rel_lookup (attributesConform_iff.mp hconforms) name
    rw [hpart, hfound] at hrelated
    cases hrelated with
    | some hconforms => exact hconforms

theorem conforms_at? {path : Path} (hconforms : source.Conforms target)
    (hpart : source.at? path = some part) (hfound : target.at? path = some found) :
    part.Conforms found := by
  induction path generalizing source target with
  | nil =>
    obtain rfl := Option.some.inj hpart
    obtain rfl := Option.some.inj hfound
    exact hconforms
  | cons step path ih =>
    obtain ⟨next, hnext, hrest⟩ := Option.bind_eq_some_iff.mp hpart
    obtain ⟨nextFound, hnextFound, hrestFound⟩ := Option.bind_eq_some_iff.mp hfound
    exact ih (conforms_part? hconforms hnext hnextFound) hrest hrestFound

theorem conforms_element? (hconforms : source.Conforms target)
    (hpart : source.element? = some part) (hfound : target.element? = some found) :
    part.Conforms found := by
  cases target <;> cases hfound <;> cases source <;> cases hpart <;>
    simp only [Conforms] at hconforms
  all_goals exact hconforms

end Ty

/-- The items of a known list or the values of a known map. -/
def Value.elements : Value → List Value
  | list _ items => items
  | map _ entries => entries.map Prod.snd
  | _ => []

namespace Conversion

open Rule

variable {value converted : Value} {target source element : Ty} {error : ConversionError}
  {items : List Value} {entries : List (String × Value)} {elements : List Ty}
  {wanted : List (String × Ty)}

/-- How the type of a value can conform to a target. -/
inductive Alignment : Value → Ty → Prop
  /-- Everything conforms to the dynamic type. -/
  | dynamic {value : Value} : Alignment value .dynamic
  /-- A type without parts conforms to itself. -/
  | same {value : Value} {target : Ty} (hty : value.ty = target) (htarget : target.IsScalar) :
    Alignment value target
  /-- A null value has no parts. -/
  | null {source target : Ty} (hdynamic : target ≠ .dynamic) : Alignment (.null source) target
  /-- An unknown value has no parts. -/
  | unknown {source target : Ty} (hdynamic : target ≠ .dynamic) : Alignment (.unknown source) target
  /-- Lists conform to lists. -/
  | list {source element : Ty} {items : List Value} :
    Alignment (.list source items) (.list element)
  /-- Maps conform to maps. -/
  | map {source element : Ty} {entries : List (String × Value)} :
    Alignment (.map source entries) (.map element)
  /-- Tuples conform to tuples of the same length. -/
  | tuple {items : List Value} {elements : List Ty} (hlength : items.length = elements.length) :
    Alignment (.tuple items) (.tuple elements)
  /-- Objects conform to objects. -/
  | object {entries : List (String × Value)} {wanted : List (String × Ty)} :
    Alignment (.object entries) (.object wanted)

theorem alignment_of_conforms (hconforms : value.ty.Conforms target) : Alignment value target := by
  by_cases hdynamic : target = .dynamic
  · subst hdynamic
    exact .dynamic
  · cases value
    case null => exact .null hdynamic
    case unknown => exact .unknown hdynamic
    all_goals cases target <;> simp only [Value.ty, Ty.Conforms] at hconforms
    case string.string | bool.bool | hostNumber.hostNumber => exact .same rfl trivial
    case number.capsule | amount.capsule | foreign.capsule =>
      subst hconforms
      exact .same rfl trivial
    case list.list => exact .list
    case map.map => exact .map
    case tuple.tuple =>
      rw [Ty.elementsConform_iff, Value.tys_eq_map, List.forall₂_map_left_iff] at hconforms
      exact .tuple hconforms.length_eq
    case object.object => exact .object
    all_goals exact absurd rfl hdynamic

/-- The elements of the value, if it is a known list or map, come out of the conversion to the
element type with one type. -/
def Uniform (value : Value) (target : Ty) : Prop :=
  ∀ element, target.element? = some element → ∀ x ∈ value.elements, ∀ y ∈ value.elements,
    ∀ x' y', convert x element = .ok x' → convert y element = .ok y' → x'.ty = y'.ty

/-- The error is that the elements of the value come out with different types, or it is the error
of a part. -/
def Located (value : Value) (target : Ty) (error : ConversionError) : Prop :=
  (error = .here .inconsistentElements ∧ ¬Uniform value target) ∨
    ∃ step part found cause, value.part? step = some part ∧ target.part? step = some found ∧
      convert part found = .error cause ∧ error = .under step cause

theorem exists_buildList (htys : ∀ x ∈ items, ∀ y ∈ items, x.ty = y.ty) :
    ∃ made, buildList element items = .ok made := by
  cases items with
  | nil => exact ⟨_, buildList_eq_ok_iff.mpr ⟨element, by simp, fun _ => rfl, rfl⟩⟩
  | cons first rest =>
    refine ⟨_, buildList_eq_ok_iff.mpr ⟨first.ty, fun item hmem => ?_, by simp, rfl⟩⟩
    exact htys item hmem first List.mem_cons_self

theorem exists_buildMap (htys : ∀ x ∈ entries, ∀ y ∈ entries, x.2.ty = y.2.ty) :
    ∃ made, buildMap element entries = .ok made := by
  cases entries with
  | nil => exact ⟨_, buildMap_eq_ok_iff.mpr ⟨element, by simp, fun _ => rfl, rfl⟩⟩
  | cons first rest =>
    refine ⟨_, buildMap_eq_ok_iff.mpr ⟨first.2.ty, fun entry hmem => ?_, by simp, rfl⟩⟩
    exact htys entry hmem first List.mem_cons_self

theorem located_list (hvalue : (Value.list source items).WellFormed)
    (hleads : Leads (.list source) (.list element))
    (herror : convert (.list source items) (.list element) = .error error) :
    Located (.list source items) (.list element) error := by
  rw [convert_list hvalue rfl hleads] at herror
  rcases bind_eq_error_iff.mp herror with herror | ⟨results, hresults, hbuild⟩
  · obtain ⟨index, item, cause, hitem, hcause, rfl⟩ := exists_of_eachItem_eq_error herror
    rw [Nat.zero_add]
    exact Or.inr ⟨.position index, item, element, cause, hitem, rfl, hcause, rfl⟩
  · refine Or.inl ⟨buildList_eq_error hbuild, fun huniform => ?_⟩
    rw [eachItem_eq_ok_iff] at hresults
    have htys : ∀ x ∈ results, ∀ y ∈ results, x.ty = y.ty := by
      intro x hx y hy
      obtain ⟨item, hitem, hitemResult⟩ := exists_of_mem_of_forall₂ hresults.flip hx
      obtain ⟨other, hother, hotherResult⟩ := exists_of_mem_of_forall₂ hresults.flip hy
      exact huniform element rfl item hitem other hother x y hitemResult hotherResult
    obtain ⟨made, hmade⟩ := exists_buildList htys
    exact nomatch hmade.symm.trans hbuild

theorem located_map (hvalue : (Value.map source entries).WellFormed)
    (hleads : Leads (.map source) (.map element))
    (herror : convert (.map source entries) (.map element) = .error error) :
    Located (.map source entries) (.map element) error := by
  rw [convert_map hvalue rfl hleads] at herror
  rcases bind_eq_error_iff.mp herror with herror | ⟨results, hresults, hbuild⟩
  · obtain ⟨entry, hentry, cause, hcause, rfl⟩ := exists_of_eachEntry_eq_error herror
    have hpart : entries.lookup entry.1 = some entry.2 :=
      (Record.lookup_eq_some_iff hvalue.2.2.1).mpr hentry
    exact Or.inr ⟨.key entry.1, entry.2, element, cause, hpart, rfl, hcause, rfl⟩
  · refine Or.inl ⟨buildMap_eq_error hbuild, fun huniform => ?_⟩
    rw [eachEntry_eq_ok_iff] at hresults
    have htys : ∀ x ∈ results, ∀ y ∈ results, x.2.ty = y.2.ty := by
      intro x hx y hy
      obtain ⟨entry, hentry, -, hentryResult⟩ := exists_of_mem_of_forall₂ hresults.flip hx
      obtain ⟨other, hother, -, hotherResult⟩ := exists_of_mem_of_forall₂ hresults.flip hy
      exact huniform element rfl entry.2 (List.mem_map_of_mem hentry) other.2
        (List.mem_map_of_mem hother) x.2 y.2 hentryResult hotherResult
    obtain ⟨made, hmade⟩ := exists_buildMap htys
    exact nomatch hmade.symm.trans hbuild

theorem located_tuple (hlength : items.length = elements.length)
    (hleads : Leads (Value.tuple items).ty (.tuple elements))
    (herror : convert (.tuple items) (.tuple elements) = .error error) :
    Located (.tuple items) (.tuple elements) error := by
  rw [convert_tuple rfl hleads, checkLength, if_pos hlength] at herror
  obtain ⟨index, element, item, cause, helement, hitem, hcause, rfl⟩ :=
    exists_of_onPositions_eq_error (map_eq_error_iff.mp herror)
  rw [Nat.zero_add]
  exact Or.inr ⟨.position index, item, element, cause, hitem, helement, hcause, rfl⟩

theorem located_object (hordered : Record.Ordered entries) (hwanted : Record.Ordered wanted)
    (hleads : Leads (Value.object entries).ty (.object wanted))
    (herror : convert (.object entries) (.object wanted) = .error error) :
    Located (.object entries) (.object wanted) error := by
  rw [convert_object hordered hleads] at herror
  obtain ⟨declared, hmem, ⟨hmissing, -⟩ | ⟨found, cause, hfound, hcause, rfl⟩⟩ :=
    exists_of_onAttributes_eq_error (map_eq_error_iff.mp herror)
  · obtain ⟨found, hfound⟩ := exists_lookup_of_leads_object hwanted hleads hmem
    exact nomatch hmissing.symm.trans hfound
  · have hdeclared : wanted.lookup declared.1 = some declared.2 :=
      (Record.lookup_eq_some_iff hwanted).mpr hmem
    exact Or.inr ⟨.member declared.1, found, declared.2, cause, hfound, hdeclared, hcause, rfl⟩

theorem located_of_convert_error (hvalue : value.WellFormed) (hconforms : value.ty.Conforms target)
    (herror : convert value target = .error error) : Located value target error := by
  have htarget := Ty.wellFormed_of_conforms (Value.wellFormed_ty hvalue) hconforms
  have hleads := leads_of_conforms htarget hconforms
  cases alignment_of_conforms hconforms with
  | dynamic => exact nomatch (convert_dynamic value).symm.trans herror
  | same hty _ => exact nomatch (convert_of_ty_eq hty).symm.trans herror
  | null hdynamic => exact nomatch (convert_null hleads hdynamic).symm.trans herror
  | unknown hdynamic => exact nomatch (convert_unknown hleads hdynamic).symm.trans herror
  | list => exact located_list hvalue hleads herror
  | map => exact located_map hvalue hleads herror
  | tuple hlength => exact located_tuple hlength hleads herror
  | object => exact located_object hvalue.1 htarget.1 hleads herror

/-- A failure is at a list or map whose elements come out with different types. -/
theorem exists_at?_of_convert_error (hvalue : value.WellFormed)
    (hconforms : value.ty.Conforms target) (herror : convert value target = .error error) :
    error.fault = .inconsistentElements ∧ ∃ part found, value.at? error.path = some part ∧
      target.at? error.path = some found ∧ ¬Uniform part found := by
  induction value using Value.part_induction generalizing target error with
  | whole value ih =>
    rcases located_of_convert_error hvalue hconforms herror with
      ⟨rfl, hmixed⟩ | ⟨step, part, found, cause, hpart, hfound, hcause, rfl⟩
    · exact ⟨rfl, value, target, rfl, rfl, hmixed⟩
    · have hinner := Ty.conforms_part? hconforms (Value.ty_part? hvalue hpart) hfound
      obtain ⟨hfault, inner, innerFound, hat, hatFound, hmixed⟩ :=
        ih step part hpart (Value.wellFormed_of_part? hvalue hpart) hinner hcause
      refine ⟨hfault, inner, innerFound, ?_, ?_, hmixed⟩
      · simp only [ConversionError.under, Value.at?, hpart, Option.bind_some, hat]
      · simp only [ConversionError.under, Ty.at?, hfound, Option.bind_some, hatFound]

/-- The elements of the value come out with one type, and every part comes out. -/
def Passes (value : Value) (target : Ty) : Prop :=
  Uniform value target ∧ ∀ step part found, value.part? step = some part →
    target.part? step = some found → ∃ result, convert part found = .ok result

theorem passes_list (hvalue : (Value.list source items).WellFormed)
    (hconvert : convert (.list source items) (.list element) = .ok converted) :
    Passes (.list source items) (.list element) := by
  obtain ⟨_, results, common, hitems, hresults, htys, -, -⟩ :=
    convert_list_inversion hvalue rfl hconvert
  obtain rfl := Option.some.inj hitems
  constructor
  · rintro _ ⟨⟩ x hx y hy x' y' hx' hy'
    obtain ⟨result, hresult, hxResult⟩ := exists_of_mem_of_forall₂ hresults hx
    obtain ⟨other, hother, hyResult⟩ := exists_of_mem_of_forall₂ hresults hy
    obtain rfl := Except.ok.inj (hx'.symm.trans hxResult)
    obtain rfl := Except.ok.inj (hy'.symm.trans hyResult)
    exact (htys x' hresult).trans (htys y' hother).symm
  · intro step part found hpart hfound
    cases step with
    | position index =>
      obtain rfl := Option.some.inj hfound
      obtain ⟨result, -, hresult⟩ :=
        exists_of_mem_of_forall₂ hresults (List.mem_of_getElem? hpart)
      exact ⟨result, hresult⟩
    | key name | member name => cases hpart

theorem passes_map (hvalue : (Value.map source entries).WellFormed)
    (hconvert : convert (.map source entries) (.map element) = .ok converted) :
    Passes (.map source entries) (.map element) := by
  obtain ⟨_, results, common, hentries, hresults, htys, -, -⟩ :=
    convert_map_inversion hvalue rfl hconvert
  obtain rfl := Option.some.inj hentries
  constructor
  · rintro _ ⟨⟩ x hx y hy x' y' hx' hy'
    obtain ⟨entry, hentry, rfl⟩ := List.mem_map.mp hx
    obtain ⟨second, hsecond, rfl⟩ := List.mem_map.mp hy
    obtain ⟨result, hresult, -, hxResult⟩ := exists_of_mem_of_forall₂ hresults hentry
    obtain ⟨other, hother, -, hyResult⟩ := exists_of_mem_of_forall₂ hresults hsecond
    obtain rfl := Except.ok.inj (hx'.symm.trans hxResult)
    obtain rfl := Except.ok.inj (hy'.symm.trans hyResult)
    exact (htys result hresult).trans (htys other hother).symm
  · intro step part found hpart hfound
    cases step with
    | position index => cases hpart
    | key name | member name =>
      obtain rfl := Option.some.inj hfound
      obtain ⟨result, -, -, hresult⟩ :=
        exists_of_mem_of_forall₂ hresults (Record.mem_of_lookup hpart)
      exact ⟨result.2, hresult⟩

theorem passes_tuple (hconvert : convert (.tuple items) (.tuple elements) = .ok converted) :
    Passes (.tuple items) (.tuple elements) := by
  obtain ⟨_, results, hitems, hlength, hresults, -⟩ := convert_tuple_inversion rfl hconvert
  obtain rfl := Option.some.inj hitems
  refine ⟨by rintro _ ⟨⟩, fun step part found hpart hfound => ?_⟩
  cases step with
  | position index =>
    have hplace : (elements.zip items)[index]? = some (found, part) :=
      List.getElem?_zip_eq_some.mpr ⟨hfound, hpart⟩
    obtain ⟨result, -, hresult⟩ :=
      exists_of_mem_of_forall₂ hresults (List.mem_of_getElem? hplace)
    exact ⟨result, hresult⟩
  | key name | member name => cases hpart

theorem passes_object (hvalue : (Value.object entries).WellFormed)
    (hwanted : Record.Ordered wanted)
    (hconvert : convert (.object entries) (.object wanted) = .ok converted) :
    Passes (.object entries) (.object wanted) := by
  obtain ⟨_, results, heq, hresults, -⟩ :=
    convert_object_inversion hwanted hvalue rfl hconvert
  obtain rfl := Value.object.inj heq
  refine ⟨by rintro _ ⟨⟩, fun step part found hpart hfound => ?_⟩
  cases step with
  | position index => cases hpart
  | key name | member name =>
    obtain ⟨result, -, -, held, hheld, hresult⟩ :=
      exists_of_mem_of_forall₂ hresults (Record.mem_of_lookup hfound)
    obtain rfl := Option.some.inj (hpart.symm.trans hheld)
    exact ⟨result.2, hresult⟩

theorem passes_of_no_parts (hparts : ∀ step, value.part? step = none)
    (helements : value.elements = []) : Passes value target := by
  refine ⟨fun element _ x hx => ?_, fun step part found hpart => ?_⟩
  · rw [helements] at hx
    cases hx
  · exact nomatch (hparts step).symm.trans hpart

theorem passes_of_no_found (htarget : target = .dynamic ∨ target.IsScalar) :
    Passes value target := by
  constructor
  · intro element hfound
    rcases htarget with rfl | hscalar
    · cases hfound
    · cases target <;> first | exact hscalar.elim | cases hfound
  · intro step part found _ hfound
    rcases htarget with rfl | hscalar
    · cases step <;> cases hfound
    · cases target <;> first | exact hscalar.elim | (cases step <;> cases hfound)

theorem passes_of_convert (hvalue : value.WellFormed) (hconforms : value.ty.Conforms target)
    (hconvert : convert value target = .ok converted) : Passes value target := by
  have htarget := Ty.wellFormed_of_conforms (Value.wellFormed_ty hvalue) hconforms
  cases alignment_of_conforms hconforms with
  | dynamic => exact passes_of_no_found (Or.inl rfl)
  | same _ hscalar => exact passes_of_no_found (Or.inr hscalar)
  | null | unknown => exact passes_of_no_parts (fun step => by cases step <;> rfl) rfl
  | list => exact passes_list hvalue hconvert
  | map => exact passes_map hvalue hconvert
  | tuple => exact passes_tuple hconvert
  | object => exact passes_object hvalue htarget.1 hconvert

/-- Wherever a value comes out, the elements of every list and map within do with one type. -/
theorem uniform_of_convert (hvalue : value.WellFormed) (hconforms : value.ty.Conforms target)
    (hconvert : convert value target = .ok converted) :
    ∀ path part found, value.at? path = some part → target.at? path = some found →
      Uniform part found := by
  induction value using Value.part_induction generalizing target converted with
  | whole value ih =>
    obtain ⟨huniform, hparts⟩ := passes_of_convert hvalue hconforms hconvert
    refine Value.forall_at?_both_iff.mpr ⟨huniform, fun step part found hpart hfound => ?_⟩
    obtain ⟨result, hresult⟩ := hparts step part found hpart hfound
    exact ih step part hpart (Value.wellFormed_of_part? hvalue hpart)
      (Ty.conforms_part? hconforms (Value.ty_part? hvalue hpart) hfound) hresult

theorem convert_loosened_iff (hvalue : value.WellFormed) (hconforms : value.ty.Conforms target) :
    (∃ converted, convert value target = .ok converted) ↔
      ∀ path part found, value.at? path = some part → target.at? path = some found →
        Uniform part found := by
  refine ⟨fun ⟨converted, hconvert⟩ => uniform_of_convert hvalue hconforms hconvert, ?_⟩
  intro huniform
  cases hconvert : convert value target with
  | ok converted => exact ⟨converted, rfl⟩
  | error error =>
    obtain ⟨-, part, found, hpart, hfound, hmixed⟩ :=
      exists_at?_of_convert_error hvalue hconforms hconvert
    exact absurd (huniform error.path part found hpart hfound) hmixed

theorem element?_ty_of_mem_elements {x : Value} (hvalue : value.WellFormed)
    (hx : x ∈ value.elements) : value.ty.element? = some x.ty := by
  cases value with
  | list source items => rw [Value.ty, Ty.element?, hvalue.2.1 x hx]
  | map source entries =>
    obtain ⟨entry, hentry, rfl⟩ := List.mem_map.mp hx
    rw [Value.ty, Ty.element?, hvalue.2.1 entry hentry]
  | _ => cases hx

/-- Elements are left alone where the element type is dynamic or not loosened at all. -/
theorem uniform_of_element? (hvalue : value.WellFormed) (hconforms : value.ty.Conforms target)
    (helement : ∀ element, target.element? = some element →
      element = .dynamic ∨ element.mentionsDynamic = false) : Uniform value target := by
  intro element hfound x hx y hy x' y' hx' hy'
  have hxTy := element?_ty_of_mem_elements hvalue hx
  have hyTy := element?_ty_of_mem_elements hvalue hy
  have hself : ∀ z ∈ value.elements, convert z element = .ok z := by
    intro z hz
    rcases helement element hfound with rfl | hdefinite
    · exact convert_dynamic z
    · have hz := Ty.conforms_element? hconforms (element?_ty_of_mem_elements hvalue hz) hfound
      exact convert_of_ty_eq (Ty.eq_of_conforms hz hdefinite)
  obtain rfl := Except.ok.inj ((hself x hx).symm.trans hx')
  obtain rfl := Except.ok.inj ((hself y hy).symm.trans hy')
  exact Option.some.inj (hxTy.symm.trans hyTy)

/-- The value is neither null nor unknown nor an empty list or map. -/
def IsFilled (value : Value) : Prop :=
  value.hasPayload = true ∧ (value.elements = [] → value.ty.element? = none)

theorem convert_list_of_parts (hvalue : (Value.list source items).WellFormed)
    (hleads : Leads (.list source) (.list element)) (hfilled : items ≠ [])
    (hparts : ∀ item ∈ items, convert item element = .ok item) :
    convert (.list source items) (.list element) = .ok (.list source items) := by
  have hitems : eachItem ConversionError.under (convert · element) 0 items = .ok items :=
    eachItem_eq_ok_iff.mpr (List.forall₂_same.mpr hparts)
  rw [convert_list hvalue rfl hleads, hitems]
  exact buildList_eq_ok_iff.mpr ⟨source, hvalue.2.1, fun hempty => absurd hempty hfilled, rfl⟩

theorem convert_map_of_parts (hvalue : (Value.map source entries).WellFormed)
    (hleads : Leads (.map source) (.map element)) (hfilled : entries ≠ [])
    (hparts : ∀ entry ∈ entries, convert entry.2 element = .ok entry.2) :
    convert (.map source entries) (.map element) = .ok (.map source entries) := by
  have hentries : eachEntry ConversionError.under (convert · element) entries = .ok entries :=
    eachEntry_eq_ok_iff.mpr (List.forall₂_same.mpr fun entry hmem => ⟨rfl, hparts entry hmem⟩)
  rw [convert_map hvalue rfl hleads, hentries]
  exact buildMap_eq_ok_iff.mpr ⟨source, hvalue.2.1, fun hempty => absurd hempty hfilled, rfl⟩

theorem convert_tuple_of_parts (hlength : items.length = elements.length)
    (hleads : Leads (Value.tuple items).ty (.tuple elements))
    (hparts : ∀ (index : Nat) (item : Value) (found : Ty), items[index]? = some item →
      elements[index]? = some found → convert item found = .ok item) :
    convert (.tuple items) (.tuple elements) = .ok (.tuple items) := by
  have hitems : onPositions elements 0 items = .ok items := by
    refine (onPositions_eq_ok_iff hlength).mpr (forall₂_zip_self ?_)
    refine List.forall₂_iff_zip.mpr ⟨hlength.symm, fun {found item} hmem => ?_⟩
    obtain ⟨index, hindex⟩ := List.mem_iff_getElem?.mp hmem
    obtain ⟨hfound, hitem⟩ := List.getElem?_zip_eq_some.mp hindex
    exact hparts index item found hitem hfound
  rw [convert_tuple rfl hleads, checkLength, if_pos hlength]
  exact map_eq_ok_iff.mpr ⟨items, hitems, rfl⟩

theorem convert_object_of_parts (hordered : Record.Ordered entries)
    (hwanted : Record.Ordered wanted)
    (hconforms : (Value.object entries).ty.Conforms (.object wanted))
    (hleads : Leads (Value.object entries).ty (.object wanted))
    (hparts : ∀ name part found, entries.lookup name = some part →
      wanted.lookup name = some found → convert part found = .ok part) :
    convert (.object entries) (.object wanted) = .ok (.object entries) := by
  have hentries : onAttributes wanted entries = .ok entries := by
    rw [Value.ty, Ty.Conforms, Ty.attributesConform_iff, Value.attributeTys_eq_mapValues,
      Record.mapValues, List.forall₂_map_left_iff] at hconforms
    refine onAttributes_eq_ok_iff.mpr ?_
    refine forall₂_imp_of_mem₂ (fun declared hdeclared entry hentry hname => ?_) hconforms.flip
    have hsame : entry.1 = declared.1 := hname.1
    have hpart : entries.lookup declared.1 = some entry.2 := by
      rw [← hsame]
      exact (Record.lookup_eq_some_iff hordered).mpr hentry
    have hfound := (Record.lookup_eq_some_iff hwanted).mpr hdeclared
    exact ⟨hsame.symm, entry.2, hpart, hparts declared.1 entry.2 declared.2 hpart hfound⟩
  rw [convert_object hordered hleads]
  exact map_eq_ok_iff.mpr ⟨entries, hentries, rfl⟩

theorem convert_self_of_parts (hvalue : value.WellFormed) (hconforms : value.ty.Conforms target)
    (hfilled : IsFilled value)
    (hparts : ∀ step part found, value.part? step = some part → target.part? step = some found →
      convert part found = .ok part) : convert value target = .ok value := by
  have htarget := Ty.wellFormed_of_conforms (Value.wellFormed_ty hvalue) hconforms
  have hleads := leads_of_conforms htarget hconforms
  cases alignment_of_conforms hconforms with
  | dynamic => exact convert_dynamic value
  | same hty _ => exact convert_of_ty_eq hty
  | null | unknown => cases hfilled.1
  | list =>
    refine convert_list_of_parts hvalue hleads (fun hempty => nomatch hfilled.2 hempty) ?_
    intro item hmem
    obtain ⟨index, hindex⟩ := List.mem_iff_getElem?.mp hmem
    exact hparts (.position index) item _ hindex rfl
  | map =>
    refine convert_map_of_parts hvalue hleads
      (fun hempty => nomatch hfilled.2 (List.map_eq_nil_iff.mpr hempty)) fun entry hmem => ?_
    have hpart := (Record.lookup_eq_some_iff hvalue.2.2.1).mpr hmem
    exact hparts (.key entry.1) entry.2 _ hpart rfl
  | tuple hlength =>
    exact convert_tuple_of_parts hlength hleads fun index => hparts (.position index)
  | object =>
    exact convert_object_of_parts hvalue.1 htarget.1 hconforms hleads fun name =>
      hparts (.member name)

theorem convert_self_of_filled (hvalue : value.WellFormed) (hconforms : value.ty.Conforms target)
    (hfilled : ∀ path part, value.at? path = some part → IsFilled part) :
    convert value target = .ok value := by
  induction value using Value.part_induction generalizing target with
  | whole value ih =>
    obtain ⟨hself, hinner⟩ := Value.forall_at?_iff.mp hfilled
    refine convert_self_of_parts hvalue hconforms hself fun step part found hpart hfound => ?_
    exact ih step part hpart (Value.wellFormed_of_part? hvalue hpart)
      (Ty.conforms_part? hconforms (Value.ty_part? hvalue hpart) hfound) (hinner step part hpart)

/-- A value fails to take a looser type only at a list or map whose elements come out with different
types, and it fails if there is one. So it takes the type if every element type in it is dynamic or
not loosened at all, and it is left alone if nothing within is null, unknown or an empty list or
map. -/
theorem convert_loosened (hvalue : value.WellFormed) (hloose : value.ty.Conforms target) :
    (∀ error, convert value target = .error error →
      error.fault = .inconsistentElements ∧ ∃ part found, value.at? error.path = some part ∧
        target.at? error.path = some found ∧ ¬Uniform part found) ∧
    ((∃ converted, convert value target = .ok converted) ↔
      ∀ path part found, value.at? path = some part → target.at? path = some found →
        Uniform part found) ∧
    ((∀ path found element, target.at? path = some found → found.element? = some element →
        element = .dynamic ∨ element.mentionsDynamic = false) →
      ∃ converted, convert value target = .ok converted) ∧
    ((∀ path part, value.at? path = some part → IsFilled part) →
      convert value target = .ok value) := by
  refine ⟨fun error herror => exists_at?_of_convert_error hvalue hloose herror,
    convert_loosened_iff hvalue hloose, fun helements => ?_, convert_self_of_filled hvalue hloose⟩
  refine (convert_loosened_iff hvalue hloose).mpr fun path part found hpart hfound => ?_
  have hconforms := Ty.conforms_at? hloose (Value.ty_at? hvalue hpart) hfound
  exact uniform_of_element? (Value.wellFormed_of_at? hvalue hpart) hconforms fun element =>
    helements path found element hfound

/-- Lists that hold something all keep the type of their items. -/
theorem convert_loosened_fullLists :
    let value := Value.list (.list .string)
      [.list .string [.string "a"], .list .string [.string "b", .null .string]]
    let target := Ty.list (.list .dynamic)
    value.WellFormed ∧ value.ty.Conforms target ∧ convert value target = .ok value ∧
      ∀ path part found, value.at? path = some part → target.at? path = some found →
        Uniform part found := by
  intro value target
  have hvalue : value.WellFormed := by
    simp [value, Value.WellFormed, Value.ItemsWellFormed, Ty.WellFormed, Value.ty]
  have hloose : value.ty.Conforms target := by
    simp only [value, target, Value.ty, Ty.Conforms]
  have hconvert : convert value target = .ok value := by rfl
  obtain ⟨-, huniform, -, -⟩ := convert_loosened hvalue hloose
  exact ⟨hvalue, hloose, hconvert, huniform.mp ⟨value, hconvert⟩⟩

/-- An empty list next to one that holds something takes another type, so that the two no longer go
into one list. -/
theorem convert_emptyList_beside_full :
    let value := Value.list (.list .string) [.list .string [], .list .string [.string "a"]]
    let target := Ty.list (.list .dynamic)
    value.WellFormed ∧ value.ty.Conforms target ∧
      convert value target = .error (.here .inconsistentElements) := by
  intro value target
  refine ⟨?_, ?_, rfl⟩
  · simp [value, Value.WellFormed, Value.ItemsWellFormed, Ty.WellFormed, Value.ty]
  · simp only [value, target, Value.ty, Ty.Conforms]

end Conversion

end LedgerValue

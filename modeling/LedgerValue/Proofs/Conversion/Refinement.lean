import LedgerValue.Proofs.Approximation
import LedgerValue.Proofs.Conversion.Soundness
import LedgerValue.Proofs.Value.Refinement

/-!
# Conversion of approximations

Where a value and an approximation of it are both converted to a type, the one result refines the
other (`keepsFills`). For a type without parts conversion even tells at once whether it will
fail (`covers_convert_scalar`): what is not known then leads to an unknown result or nowhere.
-/

namespace LedgerValue

namespace Conversion

open Rule

variable {value approximation converted approximate : Value} {target element : Ty}

/-- Only what is known of the approximation matters: the rest is unknown in the result. -/
theorem fills_of_payload (hvalue : value.WellFormed) (htarget : target.WellFormed)
    (hdynamic : target ≠ .dynamic) (hfills : value.Fills approximation)
    (hconvert : convert value target = .ok converted)
    (happroximate : convert approximation target = .ok approximate)
    (hpayload : approximation.hasPayload = true → converted.Fills approximate) :
    converted.Fills approximate := by
  have hleads := leads_of_convert happroximate
  cases approximation
  case null source =>
    obtain rfl := Value.eq_null_of_fills hfills
    obtain rfl := Except.ok.inj ((convert_null hleads hdynamic).symm.trans happroximate)
    obtain rfl := Except.ok.inj ((convert_null hleads hdynamic).symm.trans hconvert)
    simp only [Value.Fills]
  case unknown source =>
    obtain rfl := Except.ok.inj ((convert_unknown hleads hdynamic).symm.trans happroximate)
    have hsettled := settled_of_convert htarget hvalue hconvert
    simp only [Value.Fills]
    exact ⟨hsettled.wellFormed, hsettled.conforms⟩
  all_goals exact hpayload rfl

theorem eq_of_fills_of_leads_scalar (htarget : target.IsScalar)
    (hpayload : approximation.hasPayload = true) (hleads : Leads approximation.ty target)
    (hfills : value.Fills approximation) : value = approximation := by
  have hscalar := (leads_scalar htarget hleads).resolve_left (ty_ne_dynamic hpayload)
  exact Value.eq_of_fills_scalar hpayload hscalar hfills

theorem not_leads_of_fills (htarget : target.IsScalar) (hvalue : value.WellFormed)
    (happroximation : approximation.WellFormed) (hdynamic : approximation.ty ≠ .dynamic)
    (hscalar : ¬approximation.ty.IsScalar) (hfills : value.Fills approximation) :
    ¬Leads value.ty target := by
  have hconforms := Value.conforms_of_fills hvalue happroximation hfills
  intro hleads
  rcases leads_scalar htarget hleads with hty | hty
  · exact Ty.not_dynamic_of_conforms hconforms hdynamic hty
  · exact hscalar (Ty.isScalar_of_conforms hconforms hdynamic hty)

theorem convert_of_not_payload (hdynamic : target ≠ .dynamic)
    (hleads : Leads approximation.ty target) (hpayload : approximation.hasPayload = false) :
    ∃ approximate, convert approximation target = .ok approximate ∧
      approximate.hasPayload = false := by
  cases approximation
  case null => exact ⟨_, convert_null hleads hdynamic, rfl⟩
  case unknown => exact ⟨_, convert_unknown hleads hdynamic, rfl⟩
  all_goals cases hpayload

/-- Conversion to a type without parts fails at once or not at all. -/
theorem covers_convert_scalar (htarget : target.IsScalar) (hvalue : value.WellFormed)
    (happroximation : approximation.WellFormed) (hdynamic : approximation.ty ≠ .dynamic)
    (hfills : value.Fills approximation) :
    Covers (fun converted approximate => approximate.hasPayload = false ∨ converted = approximate)
      (convert value target) (convert approximation target) := by
  by_cases hscalar : approximation.ty.IsScalar
  · cases hpayload : approximation.hasPayload with
    | true =>
      -- A known scalar is the value itself.
      rw [Value.eq_of_fills_scalar hpayload hscalar hfills]
      exact covers_refl fun _ _ => Or.inr rfl
    | false =>
      have hty : value.ty = approximation.ty :=
        Ty.eq_of_conforms_scalar (Value.conforms_of_fills hvalue happroximation hfills) hscalar
      by_cases hleads : Leads approximation.ty target
      · have htarget : target ≠ .dynamic := by
          rintro rfl
          exact htarget
        obtain ⟨_, happroximate, hresult⟩ := convert_of_not_payload htarget hleads hpayload
        exact covers_of_ok happroximate fun _ _ => Or.inl hresult
      · exact covers_of_error (convert_of_not_leads (by rwa [hty]))
  · -- A type with parts does not lead to one without, and neither does what conforms to it.
    have hleads := not_leads_of_fills htarget hvalue happroximation hdynamic hscalar hfills
    exact covers_of_error (convert_of_not_leads hleads)

/-- Conversion to the type keeps what fills an approximation filling it. -/
def KeepsFills (target : Ty) : Prop :=
  ∀ value approximation converted approximate, value.WellFormed → approximation.WellFormed →
    value.Fills approximation → convert value target = .ok converted →
    convert approximation target = .ok approximate → converted.Fills approximate

theorem keepsFills_scalar (htarget : target.WellFormed) (hscalar : target.IsScalar) :
    KeepsFills target := by
  intro value approximation converted approximate hvalue _ hfills hconvert happroximate
  have hdynamic : target ≠ .dynamic := by
    rintro rfl
    exact hscalar
  refine fills_of_payload hvalue htarget hdynamic hfills hconvert happroximate fun hpayload => ?_
  have hleads := leads_of_convert happroximate
  obtain rfl := eq_of_fills_of_leads_scalar hscalar hpayload hleads hfills
  obtain rfl := Except.ok.inj (hconvert.symm.trans happroximate)
  exact Value.fills_refl (settled_of_convert htarget hvalue hconvert).wellFormed

theorem keepsFills_list (htarget : (Ty.list element).WellFormed) (helement : KeepsFills element) :
    KeepsFills (.list element) := by
  intro value approximation converted approximate hvalue happroximation hfills hconvert happroximate
  refine fills_of_payload hvalue htarget (by simp) hfills hconvert happroximate fun hpayload => ?_
  obtain ⟨items, results, common, hitems, hresults, htys, hempty, rfl⟩ :=
    convert_list_inversion happroximation hpayload happroximate
  obtain ⟨others, hothers, hpayload', hfill⟩ := Value.fills_sequence? hfills hitems
  obtain ⟨others', results', common', hothers', hresults', htys', hempty', rfl⟩ :=
    convert_list_inversion hvalue hpayload' hconvert
  obtain rfl := Option.some.inj (hothers.symm.trans hothers')
  have hresult : List.Forall₂ Value.Fills results' results := by
    refine forall₂_of_results hfill ?_ hresults' hresults
    intro other hother item hitem hfill result' result hconvert happroximate
    have hother := Value.wellFormed_items hvalue hothers other hother
    have hitem := Value.wellFormed_items happroximation hitems item hitem
    exact helement other item result' result hother hitem hfill hconvert happroximate
  simp only [Value.Fills, Value.itemsFill_iff]
  refine ⟨hresult, ?_⟩
  -- Without items both lists take the element type of the target.
  rintro rfl
  cases hresult
  rw [hempty rfl, hempty' rfl]

theorem keepsFills_map (htarget : (Ty.map element).WellFormed) (helement : KeepsFills element) :
    KeepsFills (.map element) := by
  intro value approximation converted approximate hvalue happroximation hfills hconvert happroximate
  refine fills_of_payload hvalue htarget (by simp) hfills hconvert happroximate fun hpayload => ?_
  obtain ⟨entries, results, common, hentries, hresults, htys, hempty, rfl⟩ :=
    convert_map_inversion happroximation hpayload happroximate
  obtain ⟨others, hothers, hpayload', hfill⟩ := Value.fills_named? hfills hentries
  obtain ⟨others', results', common', hothers', hresults', htys', hempty', rfl⟩ :=
    convert_map_inversion hvalue hpayload' hconvert
  obtain rfl := Option.some.inj (hothers.symm.trans hothers')
  have hresult : List.Forall₂ (fun result' result => result'.1 = result.1 ∧
      Value.Fills result'.2 result.2) results' results := by
    refine forall₂_of_results hfill ?_ hresults' hresults
    rintro other hother entry hentry ⟨hname, hfill⟩ result' result ⟨hname', hconvert⟩
      ⟨hname'', happroximate⟩
    have hother := (Value.wellFormed_entries hvalue hothers).2 other hother
    have hentry := (Value.wellFormed_entries happroximation hentries).2 entry hentry
    refine ⟨hname'.symm.trans (hname.trans hname''), ?_⟩
    exact helement other.2 entry.2 result'.2 result.2 hother hentry hfill hconvert happroximate
  simp only [Value.Fills, Value.entriesFill_iff]
  refine ⟨hresult, ?_⟩
  rintro rfl
  cases hresult
  rw [hempty rfl, hempty' rfl]

theorem keepsFills_tuple {elements : List Ty} (htarget : (Ty.tuple elements).WellFormed)
    (helements : ∀ element ∈ elements, KeepsFills element) : KeepsFills (.tuple elements) := by
  intro value approximation converted approximate hvalue happroximation hfills hconvert happroximate
  refine fills_of_payload hvalue htarget (by simp) hfills hconvert happroximate fun hpayload => ?_
  obtain ⟨items, results, hitems, -, hresults, rfl⟩ :=
    convert_tuple_inversion hpayload happroximate
  obtain ⟨others, hothers, hpayload', hfill⟩ := Value.fills_sequence? hfills hitems
  obtain ⟨others', results', hothers', -, hresults', rfl⟩ :=
    convert_tuple_inversion hpayload' hconvert
  obtain rfl := Option.some.inj (hothers.symm.trans hothers')
  have hresult : List.Forall₂ Value.Fills results' results := by
    refine forall₂_of_results (forall₂_zip hfill) ?_ hresults' hresults
    rintro ⟨element, other⟩ hplace' ⟨_, item⟩ hplace ⟨rfl, hfill⟩ result' result hconvert
      happroximate
    obtain ⟨helement, hother⟩ := List.of_mem_zip hplace'
    have hother := Value.wellFormed_items hvalue hothers other hother
    have hitem := Value.wellFormed_items happroximation hitems item (List.of_mem_zip hplace).2
    exact helements element helement other item result' result hother hitem hfill hconvert
      happroximate
  simp only [Value.Fills, Value.itemsFill_iff]
  exact hresult

theorem keepsFills_object {wanted : List (String × Ty)} (htarget : (Ty.object wanted).WellFormed)
    (hwanted : ∀ declared ∈ wanted, KeepsFills declared.2) : KeepsFills (.object wanted) := by
  intro value approximation converted approximate hvalue happroximation hfills hconvert happroximate
  refine fills_of_payload hvalue htarget (by simp) hfills hconvert happroximate fun hpayload => ?_
  obtain ⟨attributes, results, rfl, hresults, rfl⟩ :=
    convert_object_inversion htarget.1 happroximation hpayload happroximate
  obtain ⟨others, hothers, hpayload', hfill⟩ := Value.fills_named? hfills rfl
  obtain ⟨others', results', rfl, hresults', rfl⟩ :=
    convert_object_inversion htarget.1 hvalue hpayload' hconvert
  obtain rfl := Option.some.inj hothers
  have hresult : List.Forall₂ (fun result' result => result'.1 = result.1 ∧
      Value.Fills result'.2 result.2) results' results := by
    refine forall₂_of_results (List.forall₂_same.mpr fun _ _ => rfl) ?_ hresults' hresults
    rintro declared hmem _ - rfl result' result ⟨hname', other, hother, hconvert⟩
      ⟨hname, entry, hentry, happroximate⟩
    have hfill := rel_lookup hfill declared.1
    rw [hother, hentry, Option.rel_some_some] at hfill
    have hother := (Value.wellFormed_entries hvalue rfl).2 _ (Record.mem_of_lookup hother)
    have hentry := (Value.wellFormed_entries happroximation rfl).2 _ (Record.mem_of_lookup hentry)
    refine ⟨hname'.symm.trans hname, ?_⟩
    exact hwanted declared hmem other entry result'.2 result.2 hother hentry hfill hconvert
      happroximate
  simp only [Value.Fills, Value.entriesFill_iff]
  exact hresult

theorem keepsFills (htarget : target.WellFormed) : KeepsFills target := by
  induction target with
  | dynamic =>
    intro value approximation converted approximate _ _ hfills hconvert happroximate
    rw [convert_dynamic] at hconvert happroximate
    rwa [← Except.ok.inj hconvert, ← Except.ok.inj happroximate]
  | string | bool | hostNumber | capsule => exact keepsFills_scalar htarget trivial
  | list element ih => exact keepsFills_list htarget (ih htarget)
  | map element ih => exact keepsFills_map htarget (ih htarget)
  | tuple elements ih =>
    have helements := Ty.elementsWellFormed_iff.mp htarget
    exact keepsFills_tuple htarget fun element hmem => ih element hmem (helements element hmem)
  | object wanted ih =>
    have hattributes := Ty.attributesWellFormed_iff.mp htarget.2
    exact keepsFills_object htarget fun declared hmem => ih declared hmem (hattributes _ hmem)

/-- Conversion to a type with parts may refuse an approximation and yet take what refines it, so
only the results are related. -/
theorem agree_convert (hvalue : value.Refines approximation)
    (happroximation : approximation.WellFormed) (htarget : target.WellFormed) :
    Agree Value.Refines (convert value target) (convert approximation target) :=
  fun _ _ hconvert happroximate => ⟨(settled_of_convert htarget hvalue.1 hconvert).wellFormed,
    keepsFills htarget _ _ _ _ hvalue.1 happroximation hvalue.2 hconvert happroximate⟩

end Conversion

end LedgerValue

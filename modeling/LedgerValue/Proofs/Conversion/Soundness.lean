import LedgerValue.Proofs.Conversion.Failure

/-!
# Soundness of conversion

What a conversion gives is well formed, has a type that conforms to the target, and is left alone by
the same conversion. No list or map is ever put together from elements of different types. Main
statement: `convert_sound`.
-/

namespace LedgerValue

namespace Conversion

open Rule

variable {value converted : Value} {target element : Ty} {items : List Value}
  {entries : List (String × Value)} {elements : List Ty} {wanted : List (String × Ty)}

/-- The value has the target type in place and another conversion to it changes nothing. -/
structure Settled (converted : Value) (target : Ty) : Prop where
  /-- The value is well formed. -/
  wellFormed : converted.WellFormed
  /-- Its type is the target with types in place of dynamic ones. -/
  conforms : converted.ty.Conforms target
  /-- It is left alone. -/
  convert_self : convert converted target = .ok converted

theorem settled_of_ty_eq (hconverted : converted.WellFormed) (hty : converted.ty = target) :
    Settled converted target :=
  ⟨hconverted, hty ▸ Ty.conforms_refl _, convert_of_ty_eq hty⟩

/-- Null and unknown values take the target for their type, so only payloads matter. -/
theorem settled_of_payload (htarget : target.WellFormed) (hdynamic : target ≠ .dynamic)
    (hconvert : convert value target = .ok converted)
    (hpayload : value.hasPayload = true → Settled converted target) : Settled converted target := by
  have hleads := leads_of_convert hconvert
  cases value
  case null source =>
    obtain rfl := Except.ok.inj ((convert_null hleads hdynamic).symm.trans hconvert)
    exact settled_of_ty_eq htarget rfl
  case unknown source =>
    obtain rfl := Except.ok.inj ((convert_unknown hleads hdynamic).symm.trans hconvert)
    exact settled_of_ty_eq htarget rfl
  all_goals exact hpayload rfl

theorem wellFormed_scalar (hvalue : value.ty.IsScalar) (hpayload : value.hasPayload = true) :
    value.WellFormed := by
  cases value <;> simp only [Value.hasPayload, Bool.false_eq_true] at hpayload <;>
    simp only [Value.ty, Ty.IsScalar] at hvalue <;> trivial

theorem common_of_settled {common : Ty} {results : List Value} (helement : element.WellFormed)
    (hresults : ∀ result ∈ results, Settled result element)
    (htys : ∀ result ∈ results, result.ty = common) (hempty : results = [] → common = element) :
    common.WellFormed ∧ common.Conforms element := by
  cases results with
  | nil =>
    rw [hempty rfl]
    exact ⟨helement, Ty.conforms_refl _⟩
  | cons result rest =>
    have hresult := hresults result List.mem_cons_self
    rw [← htys result List.mem_cons_self]
    exact ⟨Value.wellFormed_ty hresult.wellFormed, hresult.conforms⟩

theorem settled_list {common : Ty} {results : List Value} (helement : element.WellFormed)
    (hresults : ∀ result ∈ results, Settled result element)
    (htys : ∀ result ∈ results, result.ty = common) (hempty : results = [] → common = element) :
    Settled (.list common results) (.list element) := by
  obtain ⟨hcommon, hconforms⟩ := common_of_settled helement hresults htys hempty
  have hwellFormed : (Value.list common results).WellFormed :=
    ⟨hcommon, htys, Value.itemsWellFormed_iff.mpr fun result hmem =>
      (hresults result hmem).wellFormed⟩
  have hleads : Leads (Value.list common results).ty (.list element) :=
    leads_of_conforms helement hconforms
  have hagain : eachItem ConversionError.under (convert · element) 0 results = .ok results :=
    eachItem_eq_ok_iff.mpr <| List.forall₂_same.mpr fun result hmem =>
      (hresults result hmem).convert_self
  refine ⟨hwellFormed, hconforms, ?_⟩
  rw [convert_list hwellFormed rfl hleads, hagain]
  exact buildList_eq_ok_iff.mpr ⟨common, htys, hempty, rfl⟩

theorem settled_map {common : Ty} {results : List (String × Value)} (helement : element.WellFormed)
    (hordered : Record.Ordered results) (hresults : ∀ result ∈ results, Settled result.2 element)
    (htys : ∀ result ∈ results, result.2.ty = common) (hempty : results = [] → common = element) :
    Settled (.map common results) (.map element) := by
  obtain ⟨hcommon, hconforms⟩ := common_of_settled helement (List.forall_mem_map.mpr hresults)
    (List.forall_mem_map.mpr htys) fun hnil => hempty (List.map_eq_nil_iff.mp hnil)
  have hwellFormed : (Value.map common results).WellFormed :=
    ⟨hcommon, htys, hordered, Value.entriesWellFormed_iff.mpr fun result hmem =>
      (hresults result hmem).wellFormed⟩
  have hleads : Leads (Value.map common results).ty (.map element) :=
    leads_of_conforms helement hconforms
  have hagain : eachEntry ConversionError.under (convert · element) results = .ok results :=
    eachEntry_eq_ok_iff.mpr <| List.forall₂_same.mpr fun result hmem =>
      ⟨rfl, (hresults result hmem).convert_self⟩
  refine ⟨hwellFormed, hconforms, ?_⟩
  rw [convert_map hwellFormed rfl hleads, hagain]
  exact buildMap_eq_ok_iff.mpr ⟨common, htys, hempty, rfl⟩

theorem settled_tuple {results : List Value} (helements : (Ty.tuple elements).WellFormed)
    (hresults : List.Forall₂ (fun element result => Settled result element) elements results) :
    Settled (.tuple results) (.tuple elements) := by
  have hconforms : (Value.tuple results).ty.Conforms (.tuple elements) := by
    rw [Value.ty, Value.tys_eq_map, Ty.Conforms, Ty.elementsConform_iff, List.forall₂_map_left_iff]
    exact (hresults.imp fun _ _ hresult => hresult.conforms).flip
  refine ⟨Value.itemsWellFormed_iff.mpr fun result hmem => ?_, hconforms, ?_⟩
  · obtain ⟨element, -, hresult⟩ := exists_of_mem_of_forall₂ hresults.flip hmem
    exact hresult.wellFormed
  · have hlength : results.length = elements.length := hresults.length_eq.symm
    have hagain : onPositions elements 0 results = .ok results :=
      (onPositions_eq_ok_iff hlength).mpr <|
        forall₂_zip_self (hresults.imp fun _ _ hresult => hresult.convert_self)
    rw [convert_tuple rfl (leads_of_conforms helements hconforms), checkLength, if_pos hlength]
    change (onPositions elements 0 results).map Value.tuple = _
    rw [hagain]
    rfl

theorem settled_object {results : List (String × Value)} (hwanted : (Ty.object wanted).WellFormed)
    (hresults : List.Forall₂
      (fun declared result => declared.1 = result.1 ∧ Settled result.2 declared.2) wanted results) :
    Settled (.object results) (.object wanted) := by
  have hconforms : (Value.object results).ty.Conforms (.object wanted) := by
    rw [Value.ty, Value.attributeTys_eq_mapValues, Ty.Conforms, Ty.attributesConform_iff,
      Record.mapValues, List.forall₂_map_left_iff]
    exact (hresults.imp fun _ _ hresult => ⟨hresult.1.symm, hresult.2.conforms⟩).flip
  have hordered : Record.Ordered results :=
    Record.ordered_of_keys_eq hwanted.1 (keys_eq_of_forall₂ (hresults.imp fun _ _ h => h.1))
  refine ⟨⟨hordered, Value.entriesWellFormed_iff.mpr fun result hmem => ?_⟩, hconforms, ?_⟩
  · obtain ⟨declared, -, -, hresult⟩ := exists_of_mem_of_forall₂ hresults.flip hmem
    exact hresult.wellFormed
  · have hagain : onAttributes wanted results = .ok results := by
      refine onAttributes_eq_ok_iff.mpr ?_
      refine (forall₂_imp_of_mem (fun result hmem declared hresult => ?_) hresults.flip).flip
      refine ⟨hresult.1, result.2, ?_, hresult.2.convert_self⟩
      rw [hresult.1]
      exact (Record.lookup_eq_some_iff hordered).mpr hmem
    rw [convert_object hordered (leads_of_conforms hwanted hconforms), hagain]
    rfl

theorem settled_of_convert (htarget : target.WellFormed) (hvalue : value.WellFormed)
    (hconvert : convert value target = .ok converted) : Settled converted target := by
  induction target generalizing value converted with
  | dynamic =>
    obtain rfl := Except.ok.inj ((convert_dynamic value).symm.trans hconvert)
    exact ⟨hvalue, by simp only [Ty.Conforms], convert_dynamic value⟩
  | string | bool | hostNumber | capsule =>
    refine settled_of_payload htarget (by simp) hconvert fun hpayload => ?_
    obtain ⟨hty, hpayload⟩ := ty_of_convert_scalar (by trivial) hpayload hconvert
    exact settled_of_ty_eq (wellFormed_scalar (by rw [hty]; trivial) hpayload) hty
  | list element ih =>
    refine settled_of_payload htarget (by simp) hconvert fun hpayload => ?_
    obtain ⟨items, results, common, hitems, hresults, htys, hempty, rfl⟩ :=
      convert_list_inversion hvalue hpayload hconvert
    refine settled_list htarget (fun result hmem => ?_) htys hempty
    obtain ⟨item, hitem, hresult⟩ := exists_of_mem_of_forall₂ hresults.flip hmem
    exact ih htarget (Value.wellFormed_items hvalue hitems item hitem) hresult
  | map element ih =>
    refine settled_of_payload htarget (by simp) hconvert fun hpayload => ?_
    obtain ⟨entries, results, common, hentries, hresults, htys, hempty, rfl⟩ :=
      convert_map_inversion hvalue hpayload hconvert
    obtain ⟨hordered, hwellFormed⟩ := Value.wellFormed_entries hvalue hentries
    have hkeys := keys_eq_of_forall₂ (hresults.imp fun _ _ h => h.1)
    refine settled_map htarget (Record.ordered_of_keys_eq hordered hkeys) (fun result hmem => ?_)
      htys hempty
    obtain ⟨entry, hentry, -, hresult⟩ := exists_of_mem_of_forall₂ hresults.flip hmem
    exact ih htarget (hwellFormed entry hentry) hresult
  | tuple elements ih =>
    refine settled_of_payload htarget (by simp) hconvert fun hpayload => ?_
    obtain ⟨items, results, hitems, hlength, hresults, rfl⟩ :=
      convert_tuple_inversion hpayload hconvert
    refine settled_tuple htarget (forall₂_imp_of_mem (fun element hmem result hresult => ?_)
      (forall₂_of_zip hlength hresults))
    obtain ⟨item, hitem, hresult⟩ := hresult
    exact ih element hmem (Ty.elementsWellFormed_iff.mp htarget element hmem)
      (Value.wellFormed_items hvalue hitems item hitem) hresult
  | object wanted ih =>
    refine settled_of_payload htarget (by simp) hconvert fun hpayload => ?_
    obtain ⟨attributes, results, rfl, hresults, rfl⟩ :=
      convert_object_inversion htarget.1 hvalue hpayload hconvert
    obtain ⟨-, hwellFormed⟩ := Value.wellFormed_entries hvalue rfl
    refine settled_object htarget
      (forall₂_imp_of_mem (fun declared hmem result hresult => ?_) hresults)
    obtain ⟨hname, found, hfound, hresult⟩ := hresult
    exact ⟨hname, ih declared hmem (Ty.attributesWellFormed_iff.mp htarget.2 declared hmem)
      (hwellFormed _ (Record.mem_of_lookup hfound)) hresult⟩

/-- Conversion of a well-formed value never puts a list or map together from elements of different
types. What it gives is well formed, has a type that conforms to the target, which is the target
where nothing in it is dynamic, and is left alone by the same conversion. -/
theorem convert_sound (hvalue : value.WellFormed) (htarget : target.WellFormed) :
    (∀ error, convert value target = .error error → ∀ fault, error.fault ≠ .element fault) ∧
    ∀ converted, convert value target = .ok converted →
      converted.WellFormed ∧ converted.ty.Conforms target ∧
        (target.mentionsDynamic = false → converted.ty = target) ∧
        convert converted target = .ok converted := by
  refine ⟨fun error herror => regular_of_convert htarget hvalue herror,
    fun converted hconvert => ?_⟩
  have hsettled := settled_of_convert htarget hvalue hconvert
  exact ⟨hsettled.wellFormed, hsettled.conforms,
    fun hdefinite => Ty.eq_of_conforms hsettled.conforms hdefinite, hsettled.convert_self⟩

/-- A tuple becomes a list over the type that its items turn out to have, and stays so. -/
theorem convert_sound_dynamicElement :
    let value := Value.tuple [.bool true, .null .bool]
    let converted := Value.list .bool [.bool true, .null .bool]
    value.WellFormed ∧ convert value (.list .dynamic) = .ok converted ∧ converted.WellFormed ∧
      converted.ty.Conforms (.list .dynamic) ∧
      convert converted (.list .dynamic) = .ok converted := by
  intro value converted
  have hvalue : value.WellFormed := by
    simp [value, Value.WellFormed, Value.ItemsWellFormed, Ty.WellFormed]
  have hconvert : convert value (.list .dynamic) = .ok converted := by rfl
  have htarget : (Ty.list .dynamic).WellFormed := trivial
  obtain ⟨hconverted, hconforms, -, hagain⟩ := (convert_sound hvalue htarget).2 converted hconvert
  exact ⟨hvalue, hconvert, hconverted, hconforms, hagain⟩

end Conversion

end LedgerValue

import LedgerValue.Proofs.Conversion.Suitability

/-!
# How conversions fail

Where the type of a value leads to the target, a conversion fails only for what the payloads hold
(`isOfData_of_convert`), and otherwise it fails for the types, at the value itself. Either way no
list or map is ever put together from elements of different types (`regular_of_convert`): before a
collection is built its elements are known to have one type. Main statement: looking up a rule for
two types decides whether a conversion can fail for the types (`convert_fails_by_types_iff`).
-/

namespace LedgerValue

namespace ConversionFault

/-- The types alone rule the conversion out. -/
def IsOfTypes : ConversionFault → Prop
  | mismatch _ _ | missingAttribute _ => True
  | _ => False

/-- What a payload holds rules the conversion out: a text that spells nothing suitable, a host
number without an exact value, a wrong number of items, or items that come out differently. -/
def IsOfData : ConversionFault → Prop
  | numberRequired | boolRequired | lengthMismatch _ _ | inconsistentElements => True
  | number cause => cause = .infinity ∨ cause = .notANumber
  | _ => False

theorem not_isOfTypes_of_isOfData {fault : ConversionFault} (hdata : fault.IsOfData) :
    ¬fault.IsOfTypes := by
  cases fault <;> first | exact not_false | exact hdata.elim

end ConversionFault

namespace Conversion

open Rule

variable {value : Value} {target element : Ty} {items : List Value}
  {entries : List (String × Value)} {elements : List Ty} {wanted : List (String × Ty)}

/-- The error is not that a list or map was put together from elements of different types. -/
def Regular (error : ConversionError) : Prop := ∀ fault, error.fault ≠ .element fault

theorem commonTy_eq_error {tys : List Ty} {error : ConversionError}
    (herror : commonTy element tys = .error error) : error = .here .inconsistentElements := by
  cases tys with
  | nil => cases herror
  | cons first rest =>
    rw [commonTy] at herror
    split at herror
    · cases herror
    · exact (Except.error.inj herror).symm

theorem buildList_eq_error {error : ConversionError}
    (herror : buildList element items = .error error) : error = .here .inconsistentElements := by
  rcases bind_eq_error_iff.mp herror with hcommon | ⟨common, hcommon, hitems⟩
  · exact commonTy_eq_error hcommon
  · obtain ⟨fault, hfault, -⟩ := mapError_eq_error_iff.mp hitems
    have hok := Value.ofItems_eq_ok_iff.mpr
      ⟨List.forall_mem_map.mp (commonTy_eq_ok_iff.mp hcommon).1, rfl⟩
    exact nomatch hok.symm.trans hfault

theorem buildMap_eq_error {error : ConversionError}
    (herror : buildMap element entries = .error error) : error = .here .inconsistentElements := by
  rcases bind_eq_error_iff.mp herror with hcommon | ⟨common, hcommon, hentries⟩
  · exact commonTy_eq_error hcommon
  · obtain ⟨fault, hfault, -⟩ := mapError_eq_error_iff.mp hentries
    have hok := Value.ofEntries_eq_ok_iff.mpr
      ⟨List.forall_mem_map.mp (commonTy_eq_ok_iff.mp hcommon).1, rfl⟩
    exact nomatch hok.symm.trans hfault

/-- A failure is the failure of the first item that does not take the type of its position. -/
theorem first_of_onPositions_eq_error {position : Nat} {error : ConversionError}
    (herror : onPositions elements position items = .error error) :
    ∃ front element item back cause, elements.zip items = front ++ (element, item) :: back ∧
      (∀ place ∈ front, ∃ result, convert place.2 place.1 = .ok result) ∧
      convert item element = .error cause ∧
      error = .under (.position (position + front.length)) cause := by
  induction elements generalizing position items with
  | nil => cases herror
  | cons element elements ih =>
    cases items with
    | nil => cases herror
    | cons item items =>
      simp only [onPositions, bind_eq_error_iff, mapError_eq_error_iff, map_eq_error_iff] at herror
      rcases herror with ⟨cause, hcause, rfl⟩ | ⟨result, hresult, hrest⟩
      · exact ⟨[], element, item, elements.zip items, cause, rfl, by simp, hcause, rfl⟩
      · obtain ⟨front, other, found, back, cause, hplaces, hfront, hcause, rfl⟩ := ih hrest
        have hplace : ∃ result, convert item element = .ok result :=
          ⟨result, mapError_eq_ok_iff.mp hresult⟩
        refine ⟨(element, item) :: front, other, found, back, cause, ?_,
          List.forall_mem_cons.mpr ⟨hplace, hfront⟩, hcause, ?_⟩
        · rw [List.zip_cons_cons, hplaces, List.cons_append]
        · rw [List.length_cons, Nat.add_right_comm, Nat.add_assoc]

/-- A failure is the failure of the item at some position. -/
theorem exists_of_onPositions_eq_error {position : Nat} {error : ConversionError}
    (herror : onPositions elements position items = .error error) :
    ∃ index element item cause, elements[index]? = some element ∧ items[index]? = some item ∧
      convert item element = .error cause ∧
      error = .under (.position (position + index)) cause := by
  obtain ⟨front, element, item, back, cause, hplaces, -, hcause, rfl⟩ :=
    first_of_onPositions_eq_error herror
  have hplace : (elements.zip items)[front.length]? = some (element, item) := by simp [hplaces]
  obtain ⟨helement, hitem⟩ := List.getElem?_zip_eq_some.mp hplace
  exact ⟨front.length, element, item, cause, helement, hitem, hcause, rfl⟩

/-- A failure is the first wanted attribute that is not there or does not take its type. -/
theorem first_of_onAttributes_eq_error {error : ConversionError}
    (herror : onAttributes wanted entries = .error error) :
    ∃ front declared back, wanted = front ++ declared :: back ∧
      (∀ other ∈ front, ∃ found result, entries.lookup other.1 = some found ∧
        convert found other.2 = .ok result) ∧
      ((entries.lookup declared.1 = none ∧ error = .here (.missingAttribute declared.1)) ∨
      ∃ found cause, entries.lookup declared.1 = some found ∧
        convert found declared.2 = .error cause ∧ error = .under (.member declared.1) cause) := by
  induction wanted with
  | nil => cases herror
  | cons declared rest ih =>
    obtain ⟨name, ty⟩ := declared
    rw [onAttributes] at herror
    split at herror
    · rename_i hmissing
      have hcause := (Except.error.inj herror).symm
      exact ⟨[], (name, ty), rest, rfl, by simp, Or.inl ⟨hmissing, hcause⟩⟩
    · rename_i found hfound
      simp only [bind_eq_error_iff, mapError_eq_error_iff, map_eq_error_iff] at herror
      rcases herror with ⟨cause, hcause, rfl⟩ | ⟨result, hresult, hrest⟩
      · exact ⟨[], (name, ty), rest, rfl, by simp, Or.inr ⟨found, cause, hfound, hcause, rfl⟩⟩
      · obtain ⟨front, other, back, rfl, hfront, hcauses⟩ := ih hrest
        have hdeclared : ∃ found result, entries.lookup name = some found ∧
            convert found ty = .ok result :=
          ⟨found, result, hfound, mapError_eq_ok_iff.mp hresult⟩
        exact ⟨(name, ty) :: front, other, back, rfl,
          List.forall_mem_cons.mpr ⟨hdeclared, hfront⟩, hcauses⟩

/-- A failure is a wanted attribute that is not there or the failure of one that is. -/
theorem exists_of_onAttributes_eq_error {error : ConversionError}
    (herror : onAttributes wanted entries = .error error) :
    ∃ declared ∈ wanted,
      (entries.lookup declared.1 = none ∧ error = .here (.missingAttribute declared.1)) ∨
      ∃ found cause, entries.lookup declared.1 = some found ∧
        convert found declared.2 = .error cause ∧ error = .under (.member declared.1) cause := by
  obtain ⟨front, declared, back, rfl, -, hcauses⟩ := first_of_onAttributes_eq_error herror
  exact ⟨declared, List.mem_append_cons_self, hcauses⟩

theorem toNumber_eq_error {x : HostNumber} {cause : NumberError}
    (herror : x.toNumber = .error cause) : cause = .infinity ∨ cause = .notANumber := by
  cases x with
  | nan => exact .inr (Except.error.inj herror).symm
  | infinity => exact .inl (Except.error.inj herror).symm
  | finite => cases herror

theorem readHostNumber_eq_error {text : String} {error : ConversionError}
    (herror : readHostNumber text = .error error) : error = .here .numberRequired := by
  rw [readHostNumber.eq_def] at herror
  split at herror
  · split at herror
    · cases herror
    · exact (Except.error.inj herror).symm
  · exact (Except.error.inj herror).symm

theorem readBool_eq_error {text : String} {error : ConversionError}
    (herror : readBool text = .error error) : error = .here .boolRequired := by
  rw [readBool.eq_def] at herror
  split at herror
  · cases herror
  · split at herror
    · cases herror
    · exact (Except.error.inj herror).symm

theorem isOfTypes_unconvertible (source target : Ty) : (unconvertible source target).IsOfTypes := by
  unfold unconvertible
  split
  · split <;> trivial
  · trivial

/-- A rule without parts fails on a payload that it suits for what the payload holds. -/
theorem isOfData_of_onScalar {rule : Rule} {error : ConversionError} (htarget : target.IsScalar)
    (hsuits : Suits rule value target) (herror : onScalar target rule value = .error error) :
    error.fault.IsOfData := by
  cases hsuits with
  | exact x =>
    obtain ⟨cause, hcause, rfl⟩ := mapError_eq_error_iff.mp (map_eq_error_iff.mp herror)
    exact toNumber_eq_error hcause
  | literal text =>
    obtain ⟨cause, -, rfl⟩ := mapError_eq_error_iff.mp (map_eq_error_iff.mp herror)
    trivial
  | stringToHostNumber text =>
    rw [readHostNumber_eq_error (map_eq_error_iff.mp herror)]
    trivial
  | stringToBool text =>
    rw [readBool_eq_error (map_eq_error_iff.mp herror)]
    trivial
  | amount | toDynamic | hostNumberToString | boolToString => cases herror
  | listToList | tupleToList | mapToMap | objectToMap | tupleToTuple | listToTuple
  | objectToObject => exact htarget.elim

/-- Where the type leads to the target, null and unknown values convert. -/
theorem exists_convert_of_vacant (hleads : Leads value.ty target)
    (hvacant : value.hasPayload = false) : ∃ converted, convert value target = .ok converted := by
  by_cases hdynamic : target = .dynamic
  · exact ⟨value, hdynamic ▸ convert_dynamic value⟩
  · cases value
    case null => exact ⟨_, convert_null hleads hdynamic⟩
    case unknown => exact ⟨_, convert_unknown hleads hdynamic⟩
    all_goals cases hvacant

theorem isOfData_of_payload {error : ConversionError} (hleads : Leads value.ty target)
    (herror : convert value target = .error error)
    (hpayload : value.hasPayload = true → error.fault.IsOfData) : error.fault.IsOfData := by
  cases hstate : value.hasPayload with
  | true => exact hpayload hstate
  | false =>
    obtain ⟨_, hconvert⟩ := exists_convert_of_vacant hleads hstate
    exact nomatch hconvert.symm.trans herror

theorem isOfData_of_convert_scalar {error : ConversionError} (htarget : target.IsScalar)
    (hleads : Leads value.ty target) (herror : convert value target = .error error) :
    error.fault.IsOfData := by
  refine isOfData_of_payload hleads herror fun hpayload => ?_
  by_cases heq : value.ty = target
  · exact nomatch (convert_of_ty_eq heq).symm.trans herror
  · obtain ⟨rule, hrule⟩ := rule_of_leads hleads heq
    have hdynamic : target ≠ .dynamic := by
      rintro rfl
      exact htarget
    rw [convert_payload hpayload hdynamic hrule, onPayload.eq_def] at herror
    refine isOfData_of_onScalar htarget (suits_of_find? hpayload hrule) ?_
    cases target <;> first | exact htarget.elim | exact herror

/-- Where the type leads to the target, a conversion fails for what the payloads hold: the parts
lead to the types that are wanted of them in turn. -/
theorem isOfData_of_convert {error : ConversionError} (htarget : target.WellFormed)
    (hvalue : value.WellFormed) (hleads : Leads value.ty target)
    (herror : convert value target = .error error) : error.fault.IsOfData := by
  induction target generalizing value error with
  | dynamic =>
    rw [convert_dynamic] at herror
    cases herror
  | string | bool | hostNumber | capsule =>
    exact isOfData_of_convert_scalar (by trivial) hleads herror
  | list element ih =>
    refine isOfData_of_payload hleads herror fun hpayload => ?_
    obtain ⟨items, hitems⟩ := exists_sequence?_of_leads_list hpayload hleads
    rw [convert_list hvalue hitems hleads] at herror
    rcases bind_eq_error_iff.mp herror with herror | ⟨_, -, hbuild⟩
    · obtain ⟨index, item, cause, hitem, hcause, rfl⟩ := exists_of_eachItem_eq_error herror
      have hmem := List.mem_of_getElem? hitem
      have hpart : cause.fault.IsOfData :=
        ih htarget (Value.wellFormed_items hvalue hitems item hmem)
          (leads_item_of_list hvalue hitems hleads hmem) hcause
      exact hpart
    · rw [buildList_eq_error hbuild]
      trivial
  | map element ih =>
    refine isOfData_of_payload hleads herror fun hpayload => ?_
    obtain ⟨entries, hentries⟩ := exists_named?_of_leads_map hpayload hleads
    rw [convert_map hvalue hentries hleads] at herror
    rcases bind_eq_error_iff.mp herror with herror | ⟨_, -, hbuild⟩
    · obtain ⟨entry, hmem, cause, hcause, rfl⟩ := exists_of_eachEntry_eq_error herror
      have hpart : cause.fault.IsOfData :=
        ih htarget ((Value.wellFormed_entries hvalue hentries).2 entry hmem)
          (leads_entry_of_map hvalue hentries hleads hmem) hcause
      exact hpart
    · rw [buildMap_eq_error hbuild]
      trivial
  | tuple elements ih =>
    refine isOfData_of_payload hleads herror fun hpayload => ?_
    obtain ⟨items, hitems⟩ := exists_sequence?_of_leads_tuple hpayload hleads
    rw [convert_tuple hitems hleads, checkLength] at herror
    split at herror
    · obtain ⟨index, element, item, cause, helement, hitem, hcause, rfl⟩ :=
        exists_of_onPositions_eq_error (map_eq_error_iff.mp herror)
      have hmem := List.mem_of_getElem? helement
      have hpart : cause.fault.IsOfData :=
        ih element hmem (Ty.elementsWellFormed_iff.mp htarget element hmem)
          (Value.wellFormed_items hvalue hitems item (List.mem_of_getElem? hitem))
          (leads_item_of_tuple hvalue hitems hleads helement hitem) hcause
      exact hpart
    · obtain rfl := Except.error.inj herror
      trivial
  | object wanted ih =>
    refine isOfData_of_payload hleads herror fun hpayload => ?_
    obtain ⟨attributes, rfl⟩ := exists_object_of_leads_object htarget.1 hpayload hleads
    obtain ⟨hordered, hwellFormed⟩ := Value.wellFormed_entries hvalue rfl
    rw [convert_object hordered hleads] at herror
    obtain ⟨declared, hmem, ⟨hmissing, -⟩ | ⟨found, cause, hfound, hcause, rfl⟩⟩ :=
      exists_of_onAttributes_eq_error (map_eq_error_iff.mp herror)
    · obtain ⟨found, hfound⟩ := exists_lookup_of_leads_object htarget.1 hleads hmem
      rw [hmissing] at hfound
      cases hfound
    · have hpart : cause.fault.IsOfData :=
        ih declared hmem (Ty.attributesWellFormed_iff.mp htarget.2 declared hmem)
          (hwellFormed (declared.1, found) (Record.mem_of_lookup hfound))
          (leads_attribute_of_object htarget.1 hleads hmem hfound) hcause
      exact hpart

theorem regular_of_convert {error : ConversionError} (htarget : target.WellFormed)
    (hvalue : value.WellFormed) (herror : convert value target = .error error) :
    Regular error := by
  intro fault hfault
  by_cases hleads : Leads value.ty target
  · have hdata := isOfData_of_convert htarget hvalue hleads herror
    rw [hfault] at hdata
    exact hdata
  · rw [convert_of_not_leads hleads] at herror
    obtain rfl := Except.error.inj herror
    have htypes := isOfTypes_unconvertible value.ty target
    rw [show unconvertible value.ty target = .element fault from hfault] at htypes
    exact htypes

/-- Conversions fail for the types alone exactly if the types differ and no rule is found for them,
and then at the value itself, never at a part. Otherwise null and unknown values convert, and what
else fails does so for what a payload holds. The rule that is found suits the payload, and no wanted
attribute is ever missing when it is applied, so that looking up a rule checks the types of all
parts. A rule that does not suit a payload could only report that the types do not match. -/
theorem convert_fails_by_types_iff (hvalue : value.WellFormed) (htarget : target.WellFormed) :
    ((∃ error, convert value target = .error error ∧ error.fault.IsOfTypes) ↔
      value.ty ≠ target ∧ find? value.ty target = none) ∧
    (∀ error, convert value target = .error error → error.fault.IsOfTypes → error.path = []) ∧
    (value.ty = target ∨ (∃ rule, find? value.ty target = some rule) →
      (value.hasPayload = false → ∃ converted, convert value target = .ok converted) ∧
      ∀ error, convert value target = .error error → error.fault.IsOfData) ∧
    (∀ rule, find? value.ty target = some rule → value.hasPayload = true →
      Suits rule value target ∧
      ∀ attributes wanted, value = .object attributes → target = .object wanted →
        ∀ declared ∈ wanted, ∃ found, attributes.lookup declared.1 = some found) ∧
    ∀ rule payload, ¬Suits rule payload target →
      ∃ wanted, onPayload target rule payload = .error (.here (.mismatch payload.ty wanted)) := by
  have hleads_iff : Leads value.ty target ↔
      value.ty = target ∨ ∃ rule, find? value.ty target = some rule := by
    rw [Leads, Option.isSome_iff_exists]
  have hnot_leads_iff : ¬Leads value.ty target ↔
      value.ty ≠ target ∧ find? value.ty target = none := by
    rw [Leads, not_or, Option.not_isSome_iff_eq_none]
  have hnot_leads {error : ConversionError} (herror : convert value target = .error error)
      (htypes : error.fault.IsOfTypes) : ¬Leads value.ty target := fun hleads =>
    ConversionFault.not_isOfTypes_of_isOfData
      (isOfData_of_convert htarget hvalue hleads herror) htypes
  refine ⟨⟨?_, fun hnone => ?_⟩, fun error herror htypes => ?_, fun hleads => ⟨fun hvacant => ?_,
    fun error herror => ?_⟩, fun rule hrule hpayload => ⟨suits_of_find? hpayload hrule, ?_⟩,
    fun rule payload => onPayload_of_not_suits⟩
  · rintro ⟨error, herror, htypes⟩
    exact hnot_leads_iff.mp (hnot_leads herror htypes)
  · exact ⟨_, convert_of_not_leads (hnot_leads_iff.mpr hnone), isOfTypes_unconvertible _ _⟩
  · rw [convert_of_not_leads (hnot_leads herror htypes)] at herror
    obtain rfl := Except.error.inj herror
    rfl
  · exact exists_convert_of_vacant (hleads_iff.mpr hleads) hvacant
  · exact isOfData_of_convert htarget hvalue (hleads_iff.mpr hleads) herror
  · rintro attributes wanted rfl rfl declared hmem
    exact exists_lookup_of_leads_object htarget.1 (hleads_iff.mpr (.inr ⟨rule, hrule⟩)) hmem

/-- A list of truth values fails as a whole where numbers are wanted, and a list of texts that spell
no number at the text. -/
theorem convert_fails_by_types_iff_lists :
    let truths : Value := .list .bool [.bool true]
    let texts : Value := .list .string [.string "one"]
    let target : Ty := .list .number
    truths.WellFormed ∧ texts.WellFormed ∧ target.WellFormed ∧
      (∃ error, convert truths target = .error error ∧ error.fault.IsOfTypes ∧ error.path = []) ∧
      convert texts target = .error ⟨[.position 0], .numberRequired⟩ ∧
      ConversionFault.numberRequired.IsOfData ∧ Suits .listToList texts target := by
  intro truths texts target
  have htruths : truths.WellFormed := by
    simp [truths, Value.WellFormed, Value.ItemsWellFormed, Value.ty, Ty.WellFormed]
  have htexts : texts.WellFormed := by
    simp [texts, Value.WellFormed, Value.ItemsWellFormed, Value.ty, Ty.WellFormed]
  have htarget : target.WellFormed := trivial
  have hnone : truths.ty ≠ target ∧ find? truths.ty target = none := ⟨by decide, by rfl⟩
  have hrule : find? texts.ty target = some .listToList := by rfl
  have herror : convert texts target = .error ⟨[.position 0], .numberRequired⟩ := by rfl
  obtain ⟨hfails, hwhole, -, -⟩ := convert_fails_by_types_iff htruths htarget
  obtain ⟨-, -, hleads, hsuits, -⟩ := convert_fails_by_types_iff htexts htarget
  obtain ⟨error, hconvert, htypes⟩ := hfails.mpr hnone
  exact ⟨htruths, htexts, htarget, ⟨error, hconvert, htypes, hwhole error hconvert htypes⟩, herror,
    (hleads (.inr ⟨_, hrule⟩)).2 _ herror, (hsuits _ hrule rfl).1⟩

end Conversion

end LedgerValue

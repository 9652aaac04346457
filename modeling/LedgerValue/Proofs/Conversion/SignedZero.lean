import LedgerValue.Proofs.Canonical.RoundTrip
import LedgerValue.Proofs.Conversion.Part
import LedgerValue.Proofs.SameOutcome
import LedgerValue.Proofs.Value.EqualParts

/-!
# Conversion without the sign of zero

A value and the same value with positive zeros convert with the same outcome: they fail with the
same error or give results of one type (`forgetsSigns`). The results are raw equal unless a
negative zero became a text, for only its spelling shows the sign (`rawEqual_convert_iff`).
-/

namespace LedgerValue

namespace HostNumber

/-- Zero with a minus sign. -/
def negativeZero : HostNumber := finite true 0

theorem withPositiveZero_of_ne {x : HostNumber} (hx : x ≠ negativeZero) :
    x.withPositiveZero = x := by
  cases x with
  | nan => rfl
  | infinity negative => rfl
  | finite negative rank =>
    rw [withPositiveZero]
    cases negative with
    | false => rfl
    | true =>
      have hrank : rank.val ≠ 0 := fun hzero => hx (congrArg (finite true) (Fin.ext hzero))
      simp [hrank]

@[simp]
theorem toNumber_withPositiveZero (x : HostNumber) : x.withPositiveZero.toNumber = x.toNumber := by
  by_cases hx : x = negativeZero
  · subst hx
    simp [withPositiveZero, negativeZero, toNumber]
  · rw [withPositiveZero_of_ne hx]

end HostNumber

namespace Value

variable {value : Value} {items : List Value} {entries : List (String × Value)}

/-- The values have the same type. -/
def SameTy (value other : Value) : Prop := value.ty = other.ty

theorem sameTy_refl (value : Value) : value.SameTy value := rfl

theorem wellFormed_withPositiveZeros (hvalue : value.WellFormed) :
    value.withPositiveZeros.WellFormed := by
  induction value with
  | list element items ih =>
    rw [wellFormed_list_iff] at hvalue
    simp only [withPositiveZeros, itemsWithPositiveZeros_eq_map, wellFormed_list_iff,
      List.forall_mem_map, ty_withPositiveZeros]
    exact ⟨hvalue.1, hvalue.2.1, fun item hmem => ih item hmem (hvalue.2.2 item hmem)⟩
  | map element entries ih =>
    rw [wellFormed_map_iff] at hvalue
    rw [withPositiveZeros, entriesWithPositiveZeros_eq_mapValues, wellFormed_map_iff]
    refine ⟨hvalue.1, ?_, Record.ordered_mapValues _ hvalue.2.2.1, ?_⟩
    · simp only [Record.mapValues, List.forall_mem_map, ty_withPositiveZeros]
      exact hvalue.2.1
    · simp only [Record.mapValues, List.forall_mem_map]
      exact fun entry hmem => ih entry hmem (hvalue.2.2.2 entry hmem)
  | tuple items ih =>
    rw [wellFormed_tuple_iff] at hvalue
    rw [withPositiveZeros, itemsWithPositiveZeros_eq_map, wellFormed_tuple_iff,
      List.forall_mem_map]
    exact fun item hmem => ih item hmem (hvalue item hmem)
  | object attributes ih =>
    rw [wellFormed_object_iff] at hvalue
    rw [withPositiveZeros, entriesWithPositiveZeros_eq_mapValues, wellFormed_object_iff]
    refine ⟨Record.ordered_mapValues _ hvalue.1, ?_⟩
    simp only [Record.mapValues, List.forall_mem_map]
    exact fun entry hmem => ih entry hmem (hvalue.2 entry hmem)
  | _ => exact hvalue

@[simp]
theorem hasPayload_withPositiveZeros (value : Value) :
    value.withPositiveZeros.hasPayload = value.hasPayload := by
  cases value <;> rfl

theorem withPositiveZeros_of_vacant (hvacant : value.hasPayload = false) :
    value.withPositiveZeros = value := by
  cases value <;> first | rfl | cases hvacant

/-- The only scalar that changes is the negative zero. -/
theorem eq_negativeZero_of_scalar (hscalar : value.ty.IsScalar)
    (hne : value.withPositiveZeros ≠ value) : value = .hostNumber .negativeZero := by
  cases value with
  | hostNumber x =>
    by_contra hx
    refine hne (congrArg hostNumber (HostNumber.withPositiveZero_of_ne ?_))
    rintro rfl
    exact hx rfl
  | list | map | tuple | object => exact hscalar.elim
  | _ => exact absurd rfl hne

theorem sequence?_withPositiveZeros (hitems : value.sequence? = some items) :
    value.withPositiveZeros.sequence? = some (items.map withPositiveZeros) := by
  cases value <;> cases hitems <;>
    simp [withPositiveZeros, sequence?]

theorem named?_withPositiveZeros (hentries : value.named? = some entries) :
    value.withPositiveZeros.named? = some (Record.mapValues withPositiveZeros entries) := by
  cases value <;> cases hentries <;>
    simp [withPositiveZeros, named?]

@[simp]
theorem part?_withPositiveZeros (value : Value) (step : Step) :
    value.withPositiveZeros.part? step = (value.part? step).map withPositiveZeros := by
  cases value <;> cases step <;>
    simp [withPositiveZeros, part?]

theorem at?_withPositiveZeros (value : Value) (path : Path) :
    value.withPositiveZeros.at? path = (value.at? path).map withPositiveZeros := by
  induction path generalizing value with
  | nil => rfl
  | cons step path ih =>
    rw [at?, at?, part?_withPositiveZeros]
    cases value.part? step with
    | none => rfl
    | some part => exact ih part

end Value

theorem Canonical.isWritable_of_part? {value part : Value} {step : Step} (hvalue : value.WellFormed)
    (hwritable : isWritable value = true) (hpart : value.part? step = some part) :
    isWritable part = true := by
  rw [isWritable_iff_forall_at? hvalue, Value.forall_at?_iff] at hwritable
  rw [isWritable_iff_forall_at? (Value.wellFormed_of_part? hvalue hpart)]
  exact hwritable.2 step part hpart

namespace Conversion

open Rule

variable {value converted forgotten : Value} {target element : Ty} {items others : List Value}
  {entries : List (String × Value)} {elements : List Ty} {wanted : List (String × Ty)}

/-- Conversion to the type has the same outcome for every value with positive zeros, up to the
results themselves. -/
def ForgetsSigns (target : Ty) : Prop :=
  ∀ value : Value, value.WellFormed →
    SameOutcome Value.SameTy (convert value target)
      (convert value.withPositiveZeros target)

/-- Only payloads of types that lead to the target matter. -/
theorem forgetsSigns_of_payload
    (hpayload : ∀ value : Value, value.WellFormed → value.hasPayload = true →
      Leads value.ty target →
      SameOutcome Value.SameTy (convert value target)
        (convert value.withPositiveZeros target)) : ForgetsSigns target := by
  intro value hvalue
  by_cases hleads : Leads value.ty target
  · cases hvacant : value.hasPayload with
    | true => exact hpayload value hvalue hvacant hleads
    | false =>
      rw [Value.withPositiveZeros_of_vacant hvacant]
      exact sameOutcome_refl Value.sameTy_refl _
  · have hforgotten : ¬Leads value.withPositiveZeros.ty target := by
      rwa [Value.ty_withPositiveZeros]
    rw [convert_of_not_leads hleads, convert_of_not_leads hforgotten, Value.ty_withPositiveZeros]
    exact .error _

theorem convert_hostNumber_self (x : HostNumber) :
    convert (.hostNumber x) .hostNumber = .ok (.hostNumber x) := convert_of_ty_eq rfl

theorem convert_hostNumber_string (x : HostNumber) :
    convert (.hostNumber x) .string = .ok (.string (String.ofList x.plain)) := rfl

theorem convert_hostNumber_number (x : HostNumber) :
    convert (.hostNumber x) .number =
      (x.toNumber.mapError fun cause => .here (.number cause)).map .number := rfl

theorem leads_hostNumber_iff (htarget : target.IsScalar) :
    Leads .hostNumber target ↔ target = .hostNumber ∨ target = .string ∨ target = .number := by
  rw [Leads, find?.eq_def]
  cases target with
  | capsule kind => cases kind <;> simp [NumberSource.ofTy?]
  | _ => simp [Ty.IsScalar] at htarget ⊢

theorem forgetsSigns_scalar (htarget : target.IsScalar) : ForgetsSigns target := by
  refine forgetsSigns_of_payload fun value _ hpayload hleads => ?_
  have hscalar := (leads_scalar htarget hleads).resolve_left (ty_ne_dynamic hpayload)
  cases value with
  | hostNumber x =>
    rw [Value.withPositiveZeros]
    rcases (leads_hostNumber_iff htarget).mp hleads with rfl | rfl | rfl
    · rw [convert_hostNumber_self, convert_hostNumber_self]
      exact .ok rfl
    · rw [convert_hostNumber_string, convert_hostNumber_string]
      exact .ok rfl
    · rw [convert_hostNumber_number, convert_hostNumber_number,
        HostNumber.toNumber_withPositiveZero]
      exact sameOutcome_refl Value.sameTy_refl _
  | list | map | tuple | object => exact hscalar.elim
  | _ => exact sameOutcome_refl Value.sameTy_refl _

theorem sameOutcome_buildList
    (hitems : List.Forall₂ Value.SameTy items others) :
    SameOutcome Value.SameTy (buildList element items)
      (buildList element others) := by
  have htys : items.map Value.ty = others.map Value.ty := by
    rwa [← List.forall₂_eq_eq_eq, List.forall₂_map_left_iff, List.forall₂_map_right_iff]
  rw [buildList, buildList, ← htys]
  cases hcommon : commonTy element (items.map Value.ty) with
  | error error => exact .error error
  | ok common =>
    have hsame := (commonTy_eq_ok_iff.mp hcommon).1
    have hbuilt := Value.ofItems_eq_ok_iff.mpr ⟨List.forall_mem_map.mp hsame, rfl⟩
    rw [htys] at hsame
    have hbuilt' := Value.ofItems_eq_ok_iff.mpr ⟨List.forall_mem_map.mp hsame, rfl⟩
    simp only [Except.bind, hbuilt, hbuilt', Except.mapError]
    exact .ok rfl

theorem sameOutcome_buildMap {others : List (String × Value)}
    (hentries : List.Forall₂ (fun entry other => entry.1 = other.1 ∧ entry.2.SameTy other.2)
      entries others) :
    SameOutcome Value.SameTy (buildMap element entries)
      (buildMap element others) := by
  have htys : (entries.map fun entry => entry.2.ty) = others.map fun entry => entry.2.ty := by
    rw [← List.forall₂_eq_eq_eq, List.forall₂_map_left_iff, List.forall₂_map_right_iff]
    exact hentries.imp fun _ _ hentry => hentry.2
  rw [buildMap, buildMap, ← htys]
  cases hcommon : commonTy element (entries.map fun entry => entry.2.ty) with
  | error error => exact .error error
  | ok common =>
    have hsame := (commonTy_eq_ok_iff.mp hcommon).1
    have hbuilt := Value.ofEntries_eq_ok_iff.mpr ⟨List.forall_mem_map.mp hsame, rfl⟩
    rw [htys] at hsame
    have hbuilt' := Value.ofEntries_eq_ok_iff.mpr ⟨List.forall_mem_map.mp hsame, rfl⟩
    simp only [Except.bind, hbuilt, hbuilt', Except.mapError]
    exact .ok rfl

theorem sameOutcome_onPositions (helements : ∀ element ∈ elements, ForgetsSigns element)
    (hitems : ∀ item ∈ items, item.WellFormed) (position : Nat) :
    SameOutcome (List.Forall₂ Value.SameTy)
      (onPositions elements position items)
      (onPositions elements position (items.map Value.withPositiveZeros)) := by
  induction elements generalizing items position with
  | nil => exact .ok .nil
  | cons element elements ih =>
    obtain ⟨helement, hrest⟩ := List.forall_mem_cons.mp helements
    cases items with
    | nil => exact .ok .nil
    | cons item items =>
      obtain ⟨hitem, hitems⟩ := List.forall_mem_cons.mp hitems
      rw [List.map_cons, onPositions, onPositions]
      exact sameOutcome_cons (sameOutcome_mapError _ (helement item hitem)) (ih hrest hitems _)

theorem sameOutcome_onAttributes (hwanted : ∀ declared ∈ wanted, ForgetsSigns declared.2)
    (hentries : ∀ entry ∈ entries, entry.2.WellFormed) :
    SameOutcome
      (List.Forall₂ fun entry other => entry.1 = other.1 ∧ entry.2.SameTy other.2)
      (onAttributes wanted entries)
      (onAttributes wanted (Record.mapValues Value.withPositiveZeros entries)) := by
  induction wanted with
  | nil => exact .ok .nil
  | cons declared rest ih =>
    obtain ⟨name, ty⟩ := declared
    obtain ⟨hdeclared, hrest⟩ := List.forall_mem_cons.mp hwanted
    rw [onAttributes, onAttributes, Record.lookup_mapValues]
    cases hfound : entries.lookup name with
    | none => exact .error _
    | some found =>
      have hpart := hdeclared found (hentries _ (Record.mem_of_lookup hfound))
      exact sameOutcome_consNamed name (sameOutcome_mapError _ hpart) (ih hrest)

theorem forgetsSigns_list (helement : ForgetsSigns element) : ForgetsSigns (.list element) := by
  refine forgetsSigns_of_payload fun value hvalue hpayload hleads => ?_
  obtain ⟨items, hitems⟩ := exists_sequence?_of_leads_list hpayload hleads
  have hforgotten : Leads value.withPositiveZeros.ty (.list element) := by
    rwa [Value.ty_withPositiveZeros]
  rw [convert_list hvalue hitems hleads,
    convert_list (Value.wellFormed_withPositiveZeros hvalue)
      (Value.sequence?_withPositiveZeros hitems) hforgotten]
  refine sameOutcome_bind (sameOutcome_eachItem ?_) fun _ _ => sameOutcome_buildList
  rw [List.forall₂_map_right_iff, List.forall₂_same]
  exact fun item hmem => helement item (Value.wellFormed_items hvalue hitems item hmem)

theorem forgetsSigns_map (helement : ForgetsSigns element) : ForgetsSigns (.map element) := by
  refine forgetsSigns_of_payload fun value hvalue hpayload hleads => ?_
  obtain ⟨entries, hentries⟩ := exists_named?_of_leads_map hpayload hleads
  have hforgotten : Leads value.withPositiveZeros.ty (.map element) := by
    rwa [Value.ty_withPositiveZeros]
  rw [convert_map hvalue hentries hleads,
    convert_map (Value.wellFormed_withPositiveZeros hvalue)
      (Value.named?_withPositiveZeros hentries) hforgotten]
  refine sameOutcome_bind (sameOutcome_eachEntry ?_) fun _ _ => sameOutcome_buildMap
  rw [Record.mapValues, List.forall₂_map_right_iff, List.forall₂_same]
  exact fun entry hmem =>
    ⟨rfl, helement entry.2 ((Value.wellFormed_entries hvalue hentries).2 entry hmem)⟩

theorem forgetsSigns_tuple (helements : ∀ element ∈ elements, ForgetsSigns element) :
    ForgetsSigns (.tuple elements) := by
  refine forgetsSigns_of_payload fun value hvalue hpayload hleads => ?_
  obtain ⟨items, hitems⟩ := exists_sequence?_of_leads_tuple hpayload hleads
  have hforgotten : Leads value.withPositiveZeros.ty (.tuple elements) := by
    rwa [Value.ty_withPositiveZeros]
  rw [convert_tuple hitems hleads,
    convert_tuple (Value.sequence?_withPositiveZeros hitems) hforgotten, checkLength, checkLength,
    List.length_map]
  split
  · refine sameOutcome_map (sameOutcome_onPositions helements
      (Value.wellFormed_items hvalue hitems) 0) fun results others hresults => ?_
    rw [Value.SameTy, Value.ty, Value.ty, Value.tys_eq_map, Value.tys_eq_map, Ty.tuple.injEq]
    rwa [← List.forall₂_eq_eq_eq, List.forall₂_map_left_iff, List.forall₂_map_right_iff]
  · exact .error _

theorem forgetsSigns_object (hordered : Record.Ordered wanted)
    (hwanted : ∀ declared ∈ wanted, ForgetsSigns declared.2) : ForgetsSigns (.object wanted) := by
  refine forgetsSigns_of_payload fun value hvalue hpayload hleads => ?_
  obtain ⟨attributes, rfl⟩ := exists_object_of_leads_object hordered hpayload hleads
  have hforgotten : Leads (Value.object attributes).withPositiveZeros.ty (.object wanted) := by
    rwa [Value.ty_withPositiveZeros]
  rw [Value.withPositiveZeros, Value.entriesWithPositiveZeros_eq_mapValues] at hforgotten ⊢
  rw [convert_object hvalue.1 hleads,
    convert_object (Record.ordered_mapValues _ hvalue.1) hforgotten]
  refine sameOutcome_map (sameOutcome_onAttributes hwanted
    (Value.entriesWellFormed_iff.mp hvalue.2)) fun results others hresults => ?_
  rw [Value.SameTy, Value.ty, Value.ty, Value.attributeTys_eq_mapValues,
    Value.attributeTys_eq_mapValues, Ty.object.injEq, Record.mapValues, Record.mapValues,
    ← List.forall₂_eq_eq_eq, List.forall₂_map_left_iff, List.forall₂_map_right_iff]
  exact hresults.imp fun _ _ hentry => Prod.ext hentry.1 hentry.2

/-- What is lost with the sign of a zero decides over no error and over no type. -/
theorem forgetsSigns (htarget : target.WellFormed) : ForgetsSigns target := by
  induction target with
  | dynamic =>
    intro value hvalue
    rw [convert_dynamic, convert_dynamic]
    exact .ok (Value.ty_withPositiveZeros value).symm
  | string | bool | hostNumber | capsule kind => exact forgetsSigns_scalar trivial
  | list element ih => exact forgetsSigns_list (ih htarget)
  | map element ih => exact forgetsSigns_map (ih htarget)
  | tuple elements ih =>
    exact forgetsSigns_tuple fun element hmem =>
      ih element hmem (Ty.elementsWellFormed_iff.mp htarget element hmem)
  | object wanted ih =>
    exact forgetsSigns_object htarget.1 fun declared hmem =>
      ih declared hmem (Ty.attributesWellFormed_iff.mp htarget.2 declared hmem)

theorem sameTy_of_convert (hvalue : value.WellFormed) (htarget : target.WellFormed)
    (hconvert : convert value target = .ok converted)
    (hforgotten : convert value.withPositiveZeros target = .ok forgotten) :
    converted.ty = forgotten.ty := by
  have hsame := forgetsSigns htarget value hvalue
  rw [hconvert, hforgotten] at hsame
  cases hsame with
  | ok hty => exact hty

section Definite

theorem leads_to_hostNumber {source : Ty} (hleads : Leads source .hostNumber) :
    source = .dynamic ∨ source = .hostNumber ∨ source = .string := by
  rw [Leads, find?.eq_def] at hleads
  cases source <;> simp at hleads ⊢

theorem isFinite_of_readHostNumber {text : String} {x : HostNumber}
    (hread : readHostNumber text = .ok x) : x.isFinite = true := by
  rw [readHostNumber] at hread
  split at hread
  · split at hread
    · rename_i hfinite
      rwa [← Except.ok.inj hread]
    · cases hread
  · cases hread

/-- A host number in a result was one before, or is finite because a text spells it. -/
theorem hostNumber_of_convert {x : HostNumber} (hvalue : value.WellFormed)
    (htarget : target.WellFormed) (hconvert : convert value target = .ok (.hostNumber x)) :
    value = .hostNumber x ∨ x.isFinite = true := by
  have hpayload := hasPayload_of_convert hconvert rfl
  have hconforms : Ty.hostNumber.Conforms target :=
    (settled_of_convert htarget hvalue hconvert).conforms
  rcases Ty.eq_of_scalar_conforms (by exact trivial) hconforms with rfl | rfl
  · exact Or.inl (Except.ok.inj ((convert_dynamic value).symm.trans hconvert))
  · rcases (leads_to_hostNumber (leads_of_convert hconvert)).resolve_left
      (ty_ne_dynamic hpayload) with hty | hty
    · exact Or.inl (Except.ok.inj ((convert_of_ty_eq hty).symm.trans hconvert))
    · obtain ⟨text, rfl⟩ := Value.exists_string_of_ty hty hpayload
      obtain ⟨y, hread, hy⟩ := map_eq_ok_iff.mp
        (show (readHostNumber text).map Value.hostNumber = _ from hconvert)
      obtain rfl := Value.hostNumber.inj hy
      exact Or.inr (isFinite_of_readHostNumber hread)

/-- What converts from a value with a document has one too. -/
theorem isWritable_of_convert (hvalue : value.WellFormed) (htarget : target.WellFormed)
    (hwritable : Canonical.isWritable value = true)
    (hconvert : convert value target = .ok converted) : Canonical.isWritable converted = true := by
  rw [Canonical.isWritable_iff_forall_at? hvalue] at hwritable
  rw [Canonical.isWritable_iff_forall_at? (settled_of_convert htarget hvalue hconvert).wellFormed]
  intro path part hpart
  obtain ⟨source, wanted, hsource, hwanted, hpartConvert⟩ :=
    exists_source_of_at? hvalue htarget hconvert hpart
  have hsourceWellFormed := Value.wellFormed_of_at? hvalue hsource
  have hwantedWellFormed := Ty.wellFormed_of_wantedAt? htarget hwanted
  have hdefinite := hwritable path source hsource
  constructor
  · rintro ty rfl
    have hknown := isKnown_convert hsourceWellFormed hwantedWellFormed hpartConvert
    cases source with
    | unknown found => exact hdefinite.1 found rfl
    | _ => cases hknown
  · rintro x rfl
    rcases hostNumber_of_convert hsourceWellFormed hwantedWellFormed hpartConvert with rfl | hfinite
    · exact hdefinite.2 x rfl
    · exact hfinite

end Definite

/-- A negative zero of the value became a text of the result. -/
def SpellsNegativeZero (value converted : Value) (path : Path) : Prop :=
  value.at? path = some (.hostNumber .negativeZero) ∧
    ∃ text, converted.at? path = some (.string text)

theorem convert_to_text {x : HostNumber} {text : String}
    (htarget : target.WellFormed) (hconvert : convert (.hostNumber x) target = .ok (.string text)) :
    target = .string ∧ text = String.ofList x.plain := by
  have hvalue : (Value.hostNumber x).WellFormed := trivial
  have hconforms : Ty.string.Conforms target :=
    (settled_of_convert htarget hvalue hconvert).conforms
  rcases Ty.eq_of_scalar_conforms (by exact trivial) hconforms with rfl | rfl
  · rw [convert_dynamic] at hconvert
    cases hconvert
  · rw [convert_hostNumber_string] at hconvert
    cases hconvert
    exact ⟨rfl, rfl⟩

/-- Where a negative zero became a text, the text shows the sign, unless the sign was lost
before. -/
theorem text_of_spellsNegativeZero {path : Path} (hvalue : value.WellFormed)
    (htarget : target.WellFormed) (hconvert : convert value target = .ok converted)
    (hforgotten : convert value.withPositiveZeros target = .ok forgotten)
    (hspells : SpellsNegativeZero value converted path) :
    converted.at? path = some (.string "-0") ∧ forgotten.at? path = some (.string "0") := by
  obtain ⟨hzero, text, htext⟩ := hspells
  obtain ⟨source, wanted, hsource, hwanted, hpart⟩ :=
    exists_source_of_at? hvalue htarget hconvert htext
  obtain rfl := Option.some.inj (hzero.symm.trans hsource)
  obtain ⟨rfl, rfl⟩ := convert_to_text (Ty.wellFormed_of_wantedAt? htarget hwanted) hpart
  refine ⟨htext, ?_⟩
  have hpath := atConverts (Value.wellFormed_withPositiveZeros hvalue) htarget hforgotten path
  rw [Value.at?_withPositiveZeros, hzero, hwanted, Option.map_some] at hpath
  generalize forgotten.at? path = part at hpath ⊢
  cases hpath with
  | converted hpart =>
    rw [Value.withPositiveZeros, convert_hostNumber_string] at hpart
    obtain rfl := Except.ok.inj hpart
    rfl

theorem rawEqual_self_of_isWritable (hwritable : Canonical.isWritable value = true) :
    value.rawEqual value = true :=
  have hequal := Canonical.rawEqual_withPositiveZeros hwritable
  Value.rawEqual_trans (Value.rawEqual_symm hequal) hequal

theorem leads_hostNumber_dynamic_or_scalar (hleads : Leads .hostNumber target) :
    target = .dynamic ∨ target.IsScalar := by
  rw [Leads, find?.eq_def] at hleads
  cases target <;> simp [Ty.IsScalar] at hleads ⊢

/-- A negative zero that becomes no text becomes what the positive one becomes. -/
theorem rawEqual_of_negativeZero
    (hconvert : convert (.hostNumber .negativeZero) target = .ok converted)
    (hforgotten : convert (Value.hostNumber .negativeZero).withPositiveZeros target = .ok forgotten)
    (htext : ∀ text, converted ≠ .string text) : forgotten.rawEqual converted = true := by
  have hleads : Leads .hostNumber target := leads_of_convert hconvert
  rw [Value.withPositiveZeros] at hforgotten
  rcases leads_hostNumber_dynamic_or_scalar hleads with rfl | hscalar
  · rw [convert_dynamic] at hconvert hforgotten
    obtain rfl := Except.ok.inj hconvert
    obtain rfl := Except.ok.inj hforgotten
    rfl
  · rcases (leads_hostNumber_iff hscalar).mp hleads with rfl | rfl | rfl
    · rw [convert_hostNumber_self] at hconvert hforgotten
      obtain rfl := Except.ok.inj hconvert
      obtain rfl := Except.ok.inj hforgotten
      rfl
    · rw [convert_hostNumber_string] at hconvert
      exact absurd (Except.ok.inj hconvert).symm (htext _)
    · rw [convert_hostNumber_number] at hconvert hforgotten
      rw [HostNumber.toNumber_withPositiveZero, hconvert] at hforgotten
      obtain rfl := Except.ok.inj hforgotten
      obtain ⟨n, -, rfl⟩ := map_eq_ok_iff.mp hconvert
      simp [Value.rawEqual]

/-- Collections become collections, also where the target is dynamic. -/
theorem not_isScalar_of_convert (hvalue : value.WellFormed) (htarget : target.WellFormed)
    (hpayload : value.hasPayload = true) (hscalar : ¬value.ty.IsScalar)
    (hconvert : convert value target = .ok converted) : ¬converted.ty.IsScalar := by
  intro hconverted
  have hconforms := (settled_of_convert htarget hvalue hconvert).conforms
  rcases Ty.eq_of_scalar_conforms hconverted hconforms with rfl | rfl
  · obtain rfl := Except.ok.inj ((convert_dynamic value).symm.trans hconvert)
    exact hscalar hconverted
  · exact (leads_scalar hconverted (leads_of_convert hconvert)).elim (ty_ne_dynamic hpayload)
      hscalar

/-- Collections convert to raw equal ones if their parts do. -/
theorem rawEqual_of_collection (hvalue : value.WellFormed) (htarget : target.WellFormed)
    (hpayload : value.hasPayload = true) (hscalar : ¬value.ty.IsScalar)
    (hconvert : convert value target = .ok converted)
    (hforgotten : convert value.withPositiveZeros target = .ok forgotten)
    (hparts : ∀ step source wanted part part', value.part? step = some source →
      target.wanted? step = some wanted → converted.part? step = some part →
      convert source wanted = .ok part → convert source.withPositiveZeros wanted = .ok part' →
      part'.rawEqual part = true) : forgotten.rawEqual converted = true := by
  have hpositive := Value.wellFormed_withPositiveZeros hvalue
  have hty := sameTy_of_convert hvalue htarget hconvert hforgotten
  have hconvertedScalar := not_isScalar_of_convert hvalue htarget hpayload hscalar hconvert
  refine Value.rawEqual_of_parts (settled_of_convert htarget hpositive hforgotten).wellFormed
    (settled_of_convert htarget hvalue hconvert).wellFormed hty.symm (hty ▸ hconvertedScalar)
    (hasPayload_convert hpositive htarget
      ((Value.hasPayload_withPositiveZeros value).trans hpayload) hforgotten)
    (hasPayload_convert hvalue htarget hpayload hconvert) fun step => ?_
  have hstep := partConverts hvalue htarget hconvert step
  have hstep' := partConverts hpositive htarget hforgotten step
  rw [Value.part?_withPositiveZeros] at hstep'
  generalize hsource : value.part? step = source at hstep hstep'
  generalize hwanted : target.wanted? step = wanted at hstep hstep'
  generalize hpart : converted.part? step = part at hstep ⊢
  generalize forgotten.part? step = part' at hstep' ⊢
  cases hstep with
  | converted hconvert =>
    cases hstep' with
    | converted hconvert' =>
      exact .some (hparts step _ _ _ _ hsource hwanted hpart hconvert hconvert')
  | absent =>
    cases hstep'
    all_goals exact .none
  | unwanted =>
    generalize source.map Value.withPositiveZeros = source' at hstep'
    cases hstep'
    all_goals exact .none

/-- Where no negative zero becomes a text, the results are raw equal. By induction on the parts of
the value. -/
theorem rawEqual_of_not_spellsNegativeZero (hvalue : value.WellFormed)
    (hwritable : Canonical.isWritable value = true) (htarget : target.WellFormed)
    (hconvert : convert value target = .ok converted)
    (hforgotten : convert value.withPositiveZeros target = .ok forgotten)
    (hspells : ∀ path, ¬SpellsNegativeZero value converted path) :
    forgotten.rawEqual converted = true := by
  induction value using Value.part_induction generalizing target converted forgotten with
  | whole value ih =>
    by_cases hsame : value.withPositiveZeros = value
    · rw [hsame, hconvert] at hforgotten
      obtain rfl := Except.ok.inj hforgotten
      exact rawEqual_self_of_isWritable (isWritable_of_convert hvalue htarget hwritable hconvert)
    · by_cases hscalar : value.ty.IsScalar
      · obtain rfl := Value.eq_negativeZero_of_scalar hscalar hsame
        exact rawEqual_of_negativeZero hconvert hforgotten fun text htext =>
          hspells [] ⟨rfl, text, congrArg some htext⟩
      · have hpayload : value.hasPayload = true := by
          rw [← Bool.not_eq_false]
          exact fun hvacant => hsame (Value.withPositiveZeros_of_vacant hvacant)
        refine rawEqual_of_collection hvalue htarget hpayload hscalar hconvert hforgotten ?_
        intro step source wanted part part' hsource hwanted hpart hpartConvert hpartForgotten
        refine ih step source hsource (Value.wellFormed_of_part? hvalue hsource)
          (Canonical.isWritable_of_part? hvalue hwritable hsource)
          (Ty.wellFormed_of_wanted? htarget hwanted) hpartConvert hpartForgotten ?_
        rintro path ⟨hzero, text, htext⟩
        refine hspells (step :: path) ⟨?_, text, ?_⟩
        · rw [Value.at?, hsource, Option.bind_some, hzero]
        · rw [Value.at?, hpart, Option.bind_some, htext]

/-- The results of a conversion with and without the sign of zeros are raw equal exactly when no
negative zero became a text. -/
theorem rawEqual_convert_iff (hvalue : value.WellFormed)
    (hwritable : Canonical.isWritable value = true) (htarget : target.WellFormed)
    (hconvert : convert value target = .ok converted)
    (hforgotten : convert value.withPositiveZeros target = .ok forgotten) :
    forgotten.rawEqual converted = true ↔ ∀ path, ¬SpellsNegativeZero value converted path := by
  refine ⟨fun hequal path hspells => ?_,
    rawEqual_of_not_spellsNegativeZero hvalue hwritable htarget hconvert hforgotten⟩
  obtain ⟨htext, htext'⟩ :=
    text_of_spellsNegativeZero hvalue htarget hconvert hforgotten hspells
  have hpath := Value.rel_at?_of_rawEqual hequal path
  rw [htext, htext', Option.rel_some_some] at hpath
  simp [Value.rawEqual] at hpath

end Conversion

end LedgerValue

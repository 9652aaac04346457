import LedgerValue.Proofs.Conversion.Failure
import LedgerValue.Proofs.Conversion.Part
import LedgerValue.Proofs.Text.Utf8

/-!
# The first part that fails

The path of a conversion error leads to the part that fails, in the value and in the target alike,
and what fails there fails at the part itself. Parts are converted in order: positions from the
lowest, names in the order of their bytes. So at every level of the path all that comes before the
step taken converts (`failsFirst_of_convert_error`). Main statement:
`error_locates_first_failure`.
-/

namespace LedgerValue

/-- The first step leads to a part that comes before the part of the second one: to a lower
position, or to a name of the same kind with smaller bytes. -/
def Step.Before : Step → Step → Prop
  | position index, position other => index < other
  | key name, key other => Text.utf8 name < Text.utf8 other
  | member name, member other => Text.utf8 name < Text.utf8 other
  | _, _ => False

/-- The step is written as steps into the type are: by position into lists and tuples, by key into
maps, by attribute into objects. -/
def Step.EntersBy : Step → Ty → Prop
  | position _, .list _ => True
  | position _, .tuple _ => True
  | key _, .map _ => True
  | member _, .object _ => True
  | _, _ => False

theorem Ty.wanted?_of_part? {ty part : Ty} {step : Step} (hpart : ty.part? step = some part) :
    ty.wanted? step = some part := by
  cases ty <;> first | exact hpart | cases hpart

namespace Conversion

open Rule

variable {value : Value} {target element : Ty} {items : List Value}
  {entries : List (String × Value)} {elements : List Ty} {wanted : List (String × Ty)}
  {step : Step} {error cause : ConversionError}

/-- Every part before the step converts to the type that the target has for it. -/
def PrecededByResults (value : Value) (target : Ty) (step : Step) : Prop :=
  ∀ earlier sibling declared, earlier.Before step → value.part? earlier = some sibling →
    target.part? earlier = some declared → ∃ result, convert sibling declared = .ok result

/-- The error is that of the part at the step, and all parts before it convert. -/
structure FailsFirst (value : Value) (target : Ty) (step : Step) (error cause : ConversionError) :
    Prop where
  /-- The step is written as the target asks for. -/
  enters : step.EntersBy target
  /-- The part does not convert to its type. -/
  fails : ∃ part declared, value.part? step = some part ∧ target.part? step = some declared ∧
    convert part declared = .error cause
  /-- The error names the step. -/
  located : error = .under step cause
  /-- What comes before the part converts. -/
  preceded : PrecededByResults value target step

/-- A rule without parts fails at the value itself. -/
theorem path_of_onScalar {rule : Rule} (herror : onScalar target rule value = .error error) :
    error.path = [] := by
  rw [onScalar.eq_def] at herror
  split at herror
  · rw [map_eq_error_iff, toNumber.eq_def] at herror
    split at herror
    · obtain ⟨_, -, rfl⟩ := mapError_eq_error_iff.mp herror
      rfl
    · obtain ⟨_, -, rfl⟩ := mapError_eq_error_iff.mp herror
      rfl
    · cases herror
    · obtain rfl := Except.error.inj herror
      rfl
  · cases herror
  · rw [readHostNumber_eq_error (map_eq_error_iff.mp herror)]
    rfl
  · rw [readBool_eq_error (map_eq_error_iff.mp herror)]
    rfl
  · cases herror
  · cases herror
  · obtain rfl := Except.error.inj herror
    rfl

theorem path_of_convert_scalar (htarget : target.IsScalar)
    (herror : convert value target = .error error) : error.path = [] := by
  rw [convert, byRule] at herror
  split at herror
  · cases herror
  split at herror
  · obtain rfl := Except.error.inj herror
    rfl
  · rw [guarded.eq_def] at herror
    split at herror
    · cases herror
    split at herror
    · cases herror
    · cases herror
    · rw [onPayload.eq_def] at herror
      cases target <;> first | exact htarget.elim | exact path_of_onScalar herror

theorem failsFirst_of_eachItem (hitems : value.sequence? = some items)
    (herror : eachItem ConversionError.under (convert · element) 0 items = .error error) :
    ∃ step cause, FailsFirst value (.list element) step error cause := by
  obtain ⟨front, item, back, cause, rfl, hfront, hcause, rfl⟩ := first_of_eachItem_eq_error herror
  rw [Nat.zero_add]
  refine ⟨.position front.length, cause, trivial, ⟨item, element, ?_, rfl, hcause⟩, rfl, ?_⟩
  · rw [Value.part?_of_sequence? hitems]
    simp [Value.part?]
  · intro earlier sibling declared hbefore hsibling hdeclared
    cases earlier with
    | position index =>
      obtain rfl := Option.some.inj hdeclared
      rw [Value.part?_of_sequence? hitems, Value.part?,
        List.getElem?_append_left hbefore] at hsibling
      exact hfront sibling (List.mem_of_getElem? hsibling)
    | key name | member name => exact hbefore.elim

theorem failsFirst_of_eachEntry (hentries : value.named? = some entries)
    (hordered : Record.Ordered entries)
    (herror : eachEntry ConversionError.under (convert · element) entries = .error error) :
    ∃ step cause, FailsFirst value (.map element) step error cause := by
  obtain ⟨front, entry, back, cause, rfl, hfront, hcause, rfl⟩ :=
    first_of_eachEntry_eq_error herror
  refine ⟨.key entry.1, cause, trivial, ⟨entry.2, element, ?_, rfl, hcause⟩, rfl, ?_⟩
  · rw [Value.part?_of_named? hentries]
    exact (Record.lookup_eq_some_iff hordered).mpr List.mem_append_cons_self
  · intro earlier sibling declared hbefore hsibling hdeclared
    cases earlier with
    | key name =>
      obtain rfl := Option.some.inj hdeclared
      rw [Value.part?_of_named? hentries] at hsibling
      have hmem := Record.mem_front_of_lt hordered (Record.mem_of_lookup hsibling)
        (Text.utf8_lt_utf8_iff.mp hbefore)
      exact hfront (name, sibling) hmem
    | position index | member name => exact hbefore.elim

theorem failsFirst_of_onPositions (hitems : value.sequence? = some items)
    (herror : onPositions elements 0 items = .error error) :
    ∃ step cause, FailsFirst value (.tuple elements) step error cause := by
  obtain ⟨front, element, item, back, cause, hplaces, hfront, hcause, rfl⟩ :=
    first_of_onPositions_eq_error herror
  rw [Nat.zero_add]
  have hplace : (elements.zip items)[front.length]? = some (element, item) := by simp [hplaces]
  obtain ⟨helement, hitem⟩ := List.getElem?_zip_eq_some.mp hplace
  refine ⟨.position front.length, cause, trivial, ⟨item, element, ?_, helement, hcause⟩, rfl, ?_⟩
  · rw [Value.part?_of_sequence? hitems]
    exact hitem
  · intro earlier sibling declared hbefore hsibling hdeclared
    cases earlier with
    | position index =>
      rw [Value.part?_of_sequence? hitems] at hsibling
      have hearlier : (elements.zip items)[index]? = some (declared, sibling) :=
        List.getElem?_zip_eq_some.mpr ⟨hdeclared, hsibling⟩
      rw [hplaces, List.getElem?_append_left hbefore] at hearlier
      exact hfront (declared, sibling) (List.mem_of_getElem? hearlier)
    | key name | member name => exact hbefore.elim

theorem failsFirst_of_onAttributes (hwanted : Record.Ordered wanted)
    (hfound : ∀ declared ∈ wanted, ∃ found, entries.lookup declared.1 = some found)
    (herror : onAttributes wanted entries = .error error) :
    ∃ step cause, FailsFirst (.object entries) (.object wanted) step error cause := by
  obtain ⟨front, declared, back, rfl, hfront, ⟨hmissing, -⟩ | ⟨part, cause, hpart, hcause, rfl⟩⟩ :=
    first_of_onAttributes_eq_error herror
  · obtain ⟨found, hlookup⟩ := hfound declared List.mem_append_cons_self
    exact nomatch hmissing.symm.trans hlookup
  · have hdeclared := (Record.lookup_eq_some_iff hwanted).mpr List.mem_append_cons_self
    refine ⟨.member declared.1, cause, trivial, ⟨part, declared.2, hpart, hdeclared, hcause⟩, rfl,
      ?_⟩
    intro earlier sibling ty hbefore hsibling hty
    cases earlier with
    | member name =>
      have hmem := Record.mem_front_of_lt hwanted (Record.mem_of_lookup hty)
        (Text.utf8_lt_utf8_iff.mp hbefore)
      obtain ⟨found, result, hlookup, hresult⟩ := hfront (name, ty) hmem
      obtain rfl := Option.some.inj (hsibling.symm.trans hlookup)
      exact ⟨result, hresult⟩
    | position index | key name => exact hbefore.elim

/-- An error below the value itself is that of the first part that fails. -/
theorem failsFirst_of_convert_error (hvalue : value.WellFormed) (htarget : target.WellFormed)
    (herror : convert value target = .error error) (hnested : error.path ≠ []) :
    ∃ step cause, FailsFirst value target step error cause := by
  have hleads : Leads value.ty target := by
    by_contra hleads
    rw [convert_of_not_leads hleads] at herror
    obtain rfl := Except.error.inj herror
    exact hnested rfl
  have hpayload : value.hasPayload = true := by
    cases hstate : value.hasPayload with
    | true => rfl
    | false =>
      obtain ⟨_, hconvert⟩ := exists_convert_of_vacant hleads hstate
      exact nomatch hconvert.symm.trans herror
  cases target with
  | dynamic => exact nomatch (convert_dynamic value).symm.trans herror
  | string | bool | hostNumber | capsule =>
    exact absurd (path_of_convert_scalar (by trivial) herror) hnested
  | list element =>
    obtain ⟨items, hitems⟩ := exists_sequence?_of_leads_list hpayload hleads
    rw [convert_list hvalue hitems hleads] at herror
    rcases bind_eq_error_iff.mp herror with herror | ⟨_, -, hbuild⟩
    · exact failsFirst_of_eachItem hitems herror
    · rw [buildList_eq_error hbuild] at hnested
      exact absurd rfl hnested
  | map element =>
    obtain ⟨entries, hentries⟩ := exists_named?_of_leads_map hpayload hleads
    rw [convert_map hvalue hentries hleads] at herror
    rcases bind_eq_error_iff.mp herror with herror | ⟨_, -, hbuild⟩
    · exact failsFirst_of_eachEntry hentries (Value.wellFormed_entries hvalue hentries).1 herror
    · rw [buildMap_eq_error hbuild] at hnested
      exact absurd rfl hnested
  | tuple elements =>
    obtain ⟨items, hitems⟩ := exists_sequence?_of_leads_tuple hpayload hleads
    rw [convert_tuple hitems hleads, checkLength] at herror
    split at herror
    · exact failsFirst_of_onPositions hitems (map_eq_error_iff.mp herror)
    · obtain rfl := Except.error.inj herror
      exact absurd rfl hnested
  | object wanted =>
    obtain ⟨attributes, rfl⟩ := exists_object_of_leads_object htarget.1 hpayload hleads
    rw [convert_object hvalue.1 hleads] at herror
    exact failsFirst_of_onAttributes htarget.1
      (fun declared hmem => exists_lookup_of_leads_object htarget.1 hleads hmem)
      (map_eq_error_iff.mp herror)

/-- The path leads in the value and in the target to where the conversion itself fails, and at each
level what comes before the step converts. -/
theorem firstFailure_at_path (hvalue : value.WellFormed) (htarget : target.WellFormed)
    (herror : convert value target = .error error) :
    (∃ part declared, value.at? error.path = some part ∧ target.at? error.path = some declared ∧
      convert part declared = .error (.here error.fault)) ∧
    ∀ front step back, error.path = front ++ step :: back → ∃ whole wanted,
      value.at? front = some whole ∧ target.at? front = some wanted ∧ step.EntersBy wanted ∧
      PrecededByResults whole wanted step := by
  generalize hpath : error.path = path
  induction path generalizing value target error with
  | nil =>
    have hhere : error = .here error.fault := by rw [ConversionError.here, ← hpath]
    refine ⟨⟨value, target, rfl, rfl, hhere ▸ herror⟩, fun front step back hsplit => ?_⟩
    simp at hsplit
  | cons first path ih =>
    have hnested : error.path ≠ [] := by simp [hpath]
    obtain ⟨step, cause, hfirst⟩ := failsFirst_of_convert_error hvalue htarget herror hnested
    obtain ⟨part, declared, hpart, hdeclared, hcause⟩ := hfirst.fails
    obtain rfl := hfirst.located
    obtain ⟨rfl, hrest⟩ := List.cons.inj hpath
    obtain ⟨⟨inner, wanted, hinner, hwanted, hfails⟩, hlevels⟩ :=
      ih (Value.wellFormed_of_part? hvalue hpart)
        (Ty.wellFormed_of_wanted? htarget (Ty.wanted?_of_part? hdeclared)) hcause hrest
    refine ⟨⟨inner, wanted, ?_, ?_, hfails⟩, fun front next back hsplit => ?_⟩
    · rw [Value.at?, hpart, Option.bind_some, hinner]
    · rw [Ty.at?, hdeclared, Option.bind_some, hwanted]
    · cases front with
      | nil =>
        obtain ⟨rfl, -⟩ := List.cons.inj hsplit
        exact ⟨value, target, rfl, rfl, hfirst.enters, hfirst.preceded⟩
      | cons head front =>
        obtain ⟨rfl, hinside⟩ := List.cons.inj hsplit
        obtain ⟨whole, found, hwhole, hfound, hlevel⟩ := hlevels front next back hinside
        refine ⟨whole, found, ?_, ?_, hlevel⟩
        · rw [Value.at?, hpart, Option.bind_some, hwhole]
        · rw [Ty.at?, hdeclared, Option.bind_some, hfound]

/-- The report of an error below the value itself is nested once: in front stand the steps of its
path, written one after the other, and within is a cause. Seen from a whole around the value it has
one more step in front. The steps lead in the value and in the target to the first part that fails:
there the conversion fails at the part itself for the reported cause, and at each level on the way
the parts before the step convert. -/
theorem error_locates_first_failure (hvalue : value.WellFormed) (htarget : target.WellFormed)
    (herror : convert value target = .error error) (hnested : error.path ≠ []) :
    error.report = .nested (String.ofList (error.path.flatMap Step.chars)) (.cause error.fault) ∧
    error.message =
      String.ofList (error.path.flatMap Step.chars) ++ ": " ++ error.fault.message ∧
    (∀ step, (ConversionError.under step error).report = error.report.under step.text) ∧
    (∃ part declared, value.at? error.path = some part ∧ target.at? error.path = some declared ∧
      convert part declared = .error (.here error.fault)) ∧
    ∀ front step back, error.path = front ++ step :: back → ∃ whole wanted,
      value.at? front = some whole ∧ target.at? front = some wanted ∧ step.EntersBy wanted ∧
      PrecededByResults whole wanted step := by
  obtain ⟨hfails, hlevels⟩ := firstFailure_at_path hvalue htarget herror
  have hreport := ConversionError.report_eq_nested hnested
  refine ⟨hreport, ?_, fun step => ConversionError.report_under step error, hfails, hlevels⟩
  rw [ConversionError.message, hreport]
  rfl

/-- A text that spells no number within a list within a map within an object. -/
theorem error_locates_first_failure_nested :
    let value : Value := .object [("sums", .map (.list .string)
      [("a", .list .string [.string "1"]), ("b", .list .string [.string "2", .string "x"])]),
      ("total", .string "y")]
    let target : Ty := .object [("sums", .map (.list .number)), ("total", .number)]
    let error : ConversionError := ⟨[.member "sums", .key "b", .position 1], .numberRequired⟩
    value.WellFormed ∧ target.WellFormed ∧ convert value target = .error error ∧
      error.path ≠ [] ∧ error.report = .nested ".sums[\"b\"][1]" (.cause .numberRequired) ∧
      error.message = ".sums[\"b\"][1]: a number is required" ∧
      ∃ whole wanted, value.at? [.member "sums"] = some whole ∧
        target.at? [.member "sums"] = some wanted ∧ PrecededByResults whole wanted (.key "b") := by
  intro value target error
  have hvalue : value.WellFormed := by
    refine ⟨by decide, ⟨trivial, ?_, by decide, ?_⟩, trivial, trivial⟩
    · simp [Value.ty]
    · simp [Value.EntriesWellFormed, Value.WellFormed, Value.ItemsWellFormed, Ty.WellFormed,
        Value.ty]
  have htarget : target.WellFormed := ⟨by decide, trivial, trivial, trivial⟩
  have herror : convert value target = .error error := by rfl
  have hnested : error.path ≠ [] := by simp [error]
  obtain ⟨hreport, hmessage, -, -, hlevels⟩ :=
    error_locates_first_failure hvalue htarget herror hnested
  obtain ⟨whole, wanted, hwhole, hwanted, -, hpreceded⟩ :=
    hlevels [.member "sums"] (.key "b") [.position 1] rfl
  exact ⟨hvalue, htarget, herror, hnested, hreport, hmessage, whole, wanted, hwhole, hwanted,
    hpreceded⟩

end Conversion

end LedgerValue

import LedgerValue.Proofs.Conversion.Soundness
import LedgerValue.Proofs.Value.Part

/-!
# The parts of what a conversion gives

Wherever a path leads in a converted value it leads in the source as well, and there the part of
the result is what the part of the source converts to. A part of the source has its counterpart in
the result wherever the target has a type for it, and what the target has no type for is dropped.
The type that a part is brought to is read off the target (`Ty.wanted?`); within a dynamic target
every part is wanted as it is. Main statements: `partConverts` for one step, `atConverts` along a
path.
-/

namespace LedgerValue

namespace Ty

/-- The type that the part one step in is brought to. A dynamic target lets every part be. -/
def wanted? : Ty → Step → Option Ty
  | dynamic, _ => some dynamic
  | ty, step => ty.part? step

/-- The type that the part at the end of a path is brought to. -/
def wantedAt? : Ty → Path → Option Ty
  | ty, [] => some ty
  | ty, step :: path => (ty.wanted? step).bind fun wanted => wanted.wantedAt? path

theorem wellFormed_of_wanted? {ty wanted : Ty} {step : Step} (hty : ty.WellFormed)
    (hwanted : ty.wanted? step = some wanted) : wanted.WellFormed := by
  cases ty <;> cases step <;>
    simp only [wanted?, part?, reduceCtorEq, Option.some.injEq] at hwanted
  case list.position | map.key | map.member => exact hwanted ▸ hty
  case tuple.position => exact elementsWellFormed_iff.mp hty _ (List.mem_of_getElem? hwanted)
  case object.key | object.member =>
    exact attributesWellFormed_iff.mp hty.2 _ (Record.mem_of_lookup hwanted)
  case dynamic.position | dynamic.key | dynamic.member => exact hwanted ▸ trivial

theorem wellFormed_of_wantedAt? {ty wanted : Ty} {path : Path} (hty : ty.WellFormed)
    (hwanted : ty.wantedAt? path = some wanted) : wanted.WellFormed := by
  induction path generalizing ty with
  | nil =>
    obtain rfl := Option.some.inj hwanted
    exact hty
  | cons step path ih =>
    obtain ⟨next, hnext, hrest⟩ := Option.bind_eq_some_iff.mp hwanted
    exact ih (wellFormed_of_wanted? hty hnext) hrest

end Ty

namespace Value

theorem part?_of_vacant {value : Value} (hvacant : value.hasPayload = false) (step : Step) :
    value.part? step = none := by
  cases value <;> first | rfl | cases hvacant

theorem part?_of_sequence? {value : Value} {items : List Value}
    (hitems : value.sequence? = some items) (step : Step) :
    value.part? step = (list .dynamic items).part? step := by
  cases value <;> cases hitems <;> cases step <;> rfl

theorem part?_of_named? {value : Value} {entries : List (String × Value)}
    (hentries : value.named? = some entries) (step : Step) :
    value.part? step = (map .dynamic entries).part? step := by
  cases value <;> cases hentries <;> cases step <;> rfl

theorem part?_of_scalar {value : Value} (hty : value.ty.IsScalar) (step : Step) :
    value.part? step = none := by
  cases value <;> first | rfl | exact hty.elim

end Value

namespace Conversion

variable {value converted : Value} {target element : Ty} {items results : List Value}
  {entries : List (String × Value)} {step : Step}

/-- What one way in leads to in a value, in the target of a conversion and in the result: the last
is what the first converts to, and there is none unless there are both others. -/
inductive PartConverts : Option Value → Option Ty → Option Value → Prop
  /-- A part that the target has a type for is converted. -/
  | converted {source part : Value} {wanted : Ty} (hconvert : convert source wanted = .ok part) :
    PartConverts (some source) (some wanted) (some part)
  /-- No part is made up. -/
  | absent (wanted : Option Ty) : PartConverts none wanted none
  /-- A part that the target has no type for is dropped. -/
  | unwanted (source : Option Value) : PartConverts source none none

theorem partConverts_of_rel {source part : Option Value}
    (hrel : Option.Rel (fun source part => convert source target = .ok part) source part) :
    PartConverts source (some target) part := by
  cases hrel with
  | some hconvert => exact .converted hconvert
  | none => exact .absent _

theorem partConverts_getElem? {elements : List Ty}
    (hresults : List.Forall₂
      (fun (place : Ty × Value) result => convert place.2 place.1 = .ok result)
      (elements.zip items) results) (index : Nat) :
    PartConverts items[index]? elements[index]? results[index]? := by
  have hrel := rel_getElem? hresults index
  rw [List.zip, List.getElem?_zipWith] at hrel
  generalize results[index]? = part at hrel ⊢
  cases helement : elements[index]? <;> cases hitem : items[index]? <;>
    rw [helement, hitem] at hrel <;> cases hrel
  case some.some.some hconvert => exact .converted hconvert
  case some.none.none => exact .absent _
  all_goals exact .unwanted _

theorem partConverts_lookup {wanted : List (String × Ty)} {others : List (String × Value)}
    (hresults : List.Forall₂ (fun declared result => declared.1 = result.1 ∧
      ∃ found, entries.lookup declared.1 = some found ∧ convert found declared.2 = .ok result.2)
      wanted others) (name : String) :
    PartConverts (entries.lookup name) (wanted.lookup name) (others.lookup name) := by
  have hrel := rel_lookup_named (fun key declared result => ∃ found,
    entries.lookup key = some found ∧ convert found declared = .ok result) hresults name
  generalize wanted.lookup name = declared at hrel ⊢
  generalize others.lookup name = part at hrel ⊢
  cases hrel with
  | some hfound =>
    obtain ⟨found, hlookup, hconvert⟩ := hfound
    exact hlookup ▸ .converted hconvert
  | none => exact .unwanted _

/-- Null and unknown values have no parts, and neither has what they become. -/
theorem partConverts_of_payload (hconvert : convert value target = .ok converted)
    (hpayload : value.hasPayload = true →
      PartConverts (value.part? step) (target.wanted? step) (converted.part? step)) :
    PartConverts (value.part? step) (target.wanted? step) (converted.part? step) := by
  cases hvalue : value.hasPayload with
  | true => exact hpayload hvalue
  | false =>
    rw [Value.part?_of_vacant hvalue, Value.part?_of_vacant (state_of_convert hconvert hvalue).2]
    exact .absent _

/-- Each part of a converted value is the part of the source there, converted to the type that the
target has there. -/
theorem partConverts (hvalue : value.WellFormed) (htarget : target.WellFormed)
    (hconvert : convert value target = .ok converted) (step : Step) :
    PartConverts (value.part? step) (target.wanted? step) (converted.part? step) := by
  refine partConverts_of_payload hconvert fun hpayload => ?_
  cases target with
  | dynamic =>
    obtain rfl := Except.ok.inj ((convert_dynamic value).symm.trans hconvert)
    cases value.part? step with
    | none => exact .absent _
    | some part => exact .converted (convert_dynamic part)
  | string | bool | hostNumber | capsule kind =>
    have hscalar : converted.ty.IsScalar :=
      (ty_of_convert_scalar (by exact trivial) hpayload hconvert).1 ▸ trivial
    rw [Value.part?_of_scalar hscalar step]
    exact .unwanted _
  | list element =>
    obtain ⟨items, results, common, hitems, hresults, -, -, rfl⟩ :=
      convert_list_inversion hvalue hpayload hconvert
    rw [Value.part?_of_sequence? hitems]
    cases step with
    | position index => exact partConverts_of_rel (rel_getElem? hresults index)
    | key name | member name => exact .absent _
  | tuple elements =>
    obtain ⟨items, results, hitems, -, hresults, rfl⟩ := convert_tuple_inversion hpayload hconvert
    rw [Value.part?_of_sequence? hitems]
    cases step with
    | position index => exact partConverts_getElem? hresults index
    | key name | member name => exact .absent _
  | map element =>
    obtain ⟨entries, results, common, hentries, hresults, -, -, rfl⟩ :=
      convert_map_inversion hvalue hpayload hconvert
    rw [Value.part?_of_named? hentries]
    cases step with
    | position index => exact .absent _
    | key name | member name => exact partConverts_of_rel (rel_lookup hresults name)
  | object wanted =>
    obtain ⟨attributes, results, rfl, hresults, rfl⟩ :=
      convert_object_inversion htarget.1 hvalue hpayload hconvert
    cases step with
    | position index => exact .absent _
    | key name | member name => exact partConverts_lookup hresults name

/-- Conversion goes along every path alike: what a path leads to in the result is what it leads to
in the source, converted to the type that it leads to in the target. -/
theorem atConverts (hvalue : value.WellFormed) (htarget : target.WellFormed)
    (hconvert : convert value target = .ok converted) (path : Path) :
    PartConverts (value.at? path) (target.wantedAt? path) (converted.at? path) := by
  induction path generalizing value target converted with
  | nil => exact .converted hconvert
  | cons step path ih =>
    rw [Value.at?, Ty.wantedAt?, Value.at?]
    have hstep := partConverts hvalue htarget hconvert step
    generalize hsource : value.part? step = source at hstep ⊢
    generalize hwanted : target.wanted? step = wanted at hstep ⊢
    generalize converted.part? step = part at hstep ⊢
    cases hstep with
    | converted hpart =>
      exact ih (Value.wellFormed_of_part? hvalue hsource)
        (Ty.wellFormed_of_wanted? htarget hwanted) hpart
    | absent => exact .absent _
    | unwanted => exact .unwanted _

/-- Whatever is in the result was made of what is in the same place of the source. -/
theorem exists_source_of_at? {path : Path} {part : Value} (hvalue : value.WellFormed)
    (htarget : target.WellFormed) (hconvert : convert value target = .ok converted)
    (hpart : converted.at? path = some part) :
    ∃ source wanted, value.at? path = some source ∧ target.wantedAt? path = some wanted ∧
      convert source wanted = .ok part := by
  have hpath := atConverts hvalue htarget hconvert path
  rw [hpart] at hpath
  generalize value.at? path = source at hpath ⊢
  generalize target.wantedAt? path = wanted at hpath ⊢
  cases hpath with
  | converted hconvert => exact ⟨_, _, rfl, rfl, hconvert⟩

end Conversion

end LedgerValue

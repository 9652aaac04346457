import LedgerValue.Proofs.Conversion.Part
import LedgerValue.Proofs.Indexing

/-!
# The elements of what a conversion gives

A known key stands for one position and one name, whatever collection it is put to
(`index_eq_ok_iff`). So the element that it has in a converted value is what its element in the
source converts to, and only an object type that does not declare the name makes an element go
missing. Main statement: `index_convert`, for a key and for keys one after the other.
-/

namespace LedgerValue

namespace Ty

/-- The type that the element for a key is brought to. Within a dynamic target every element is
wanted as it is. -/
def elementFor? (key : Value) : Ty → Option Ty
  | list element => some element
  | map element => some element
  | tuple elements =>
    match Indexing.target key with
    | .ok (.at position) => elements[position]?
    | _ => none
  | object attributes =>
    match Indexing.name key with
    | .ok (some name) => attributes.lookup name
    | _ => none
  | dynamic => some dynamic
  | _ => none

/-- The type is an object type without the attribute that the key names. -/
def Omits (key : Value) (ty : Ty) : Prop :=
  ∃ attributes name, ty = object attributes ∧ Indexing.name key = .ok (some name) ∧
    attributes.lookup name = none

/-- The type that the element for keys one after the other is brought to. -/
def elementAlong? : List Value → Ty → Option Ty
  | [], ty => some ty
  | key :: keys, ty => (ty.elementFor? key).bind (elementAlong? keys)

/-- One of the keys comes to an object type without the attribute that it names. -/
def OmitsAlong : List Value → Ty → Prop
  | [], _ => False
  | key :: keys, ty => ty.Omits key ∨ ∃ wanted, ty.elementFor? key = some wanted ∧
      OmitsAlong keys wanted

end Ty

/-- The element that keys lead to one after the other. -/
def indexAlong : List Value → Value → Indexed Value
  | [], value => .ok value
  | key :: keys, value => (index value key).bind (indexAlong keys)

/-- Every value that one of the keys is put to is known. -/
def KnownAlong : List Value → Value → Prop
  | [], _ => True
  | key :: keys, value => value.isKnown = true ∧
      ∀ element, index value key = .ok element → KnownAlong keys element

/-- The key stands for the step: for a position or for a name. -/
def Step.IsFor (sought : Value) : Step → Prop
  | position index => Indexing.target sought = .ok (.at index)
  | key name => Indexing.name sought = .ok (some name)
  | member _ => False

namespace Indexing

variable {key collection element : Value}

/-- A known key of a sequence is refused, or is no position, or is one. -/
theorem target_of_payload {found : Target} (hkey : key.hasPayload = true)
    (htarget : target key = .ok found) : found ≠ .unknown := by
  rintro rfl
  obtain ⟨converted, hconverted, hfound⟩ := bind_eq_ok_iff.mp htarget
  have hconvert := mapError_eq_ok_iff.mp hconverted
  have hscalar : Ty.IsScalar .number := trivial
  obtain ⟨hty, hpayload⟩ := Conversion.ty_of_convert_scalar hscalar hkey hconvert
  cases converted <;> simp only [Value.ty, Ty.capsule.injEq, reduceCtorEq] at hty
  case number n =>
    dsimp only at hfound
    split at hfound
    · cases hposition : n.toPosition? <;> rw [hposition] at hfound <;> cases hfound
    · cases hfound
  all_goals cases hpayload

/-- A known key of named entries is refused or is a name. -/
theorem name_of_payload {found : Option String} (hkey : key.hasPayload = true)
    (hname : name key = .ok found) : ∃ text, found = some text := by
  obtain ⟨converted, hconverted, rfl⟩ := map_eq_ok_iff.mp hname
  have hconvert := mapError_eq_ok_iff.mp hconverted
  have hscalar : Ty.IsScalar .string := trivial
  obtain ⟨hty, hpayload⟩ := Conversion.ty_of_convert_scalar hscalar hkey hconvert
  obtain ⟨text, rfl⟩ := Value.exists_string_of_ty hty hpayload
  exact ⟨text, rfl⟩

theorem pick_sequence_eq_ok_iff {items : List Value} {pick : Target → Indexed Value}
    (hitems : collection.sequence? = some items) (hkey : key.hasPayload = true)
    (hnowhere : pick .nowhere = .error .notFound)
    (hat : ∀ position, pick (.at position) = found items[position]?) :
    (target key).bind pick = .ok element ↔
      ∃ step : Step, step.IsFor key ∧ collection.part? step = some element := by
  constructor
  · intro hpick
    obtain ⟨place, hplace, helement⟩ := bind_eq_ok_iff.mp hpick
    cases place with
    | unknown => exact absurd rfl (target_of_payload hkey hplace)
    | nowhere => exact nomatch hnowhere.symm.trans helement
    | «at» position =>
      rw [hat, found_eq_ok_iff] at helement
      exact ⟨.position position, hplace, (Value.part?_of_sequence? hitems _).trans helement⟩
  · rintro ⟨step, hstep, hpart⟩
    rw [Value.part?_of_sequence? hitems] at hpart
    cases step with
    | position index =>
      exact bind_eq_ok_iff.mpr ⟨_, hstep, (hat index).trans (found_eq_ok_iff.mpr hpart)⟩
    | key name | member name => cases hpart

theorem pick_named_eq_ok_iff {entries : List (String × Value)}
    {pick : Option String → Indexed Value} (hentries : collection.named? = some entries)
    (hkey : key.hasPayload = true)
    (hpick : ∀ name, pick (some name) = found (entries.lookup name)) :
    (name key).bind pick = .ok element ↔
      ∃ step : Step, step.IsFor key ∧ collection.part? step = some element := by
  constructor
  · intro hfound
    obtain ⟨place, hplace, helement⟩ := bind_eq_ok_iff.mp hfound
    obtain ⟨text, rfl⟩ := name_of_payload hkey hplace
    rw [hpick, found_eq_ok_iff] at helement
    exact ⟨.key text, hplace, (Value.part?_of_named? hentries _).trans helement⟩
  · rintro ⟨step, hstep, hpart⟩
    rw [Value.part?_of_named? hentries] at hpart
    cases step with
    | key name =>
      exact bind_eq_ok_iff.mpr ⟨_, hstep, (hpick name).trans (found_eq_ok_iff.mpr hpart)⟩
    | position index => cases hpart
    | member name => exact hstep.elim

theorem ofTuple_tuple (items : List Value) (position : Nat) :
    ofTuple (Value.tys items) (.tuple items) (.at position) = found items[position]? := by
  rw [Value.tys_eq_map]
  cases hitem : items[position]? <;> simp [ofTuple, found, hitem]

end Indexing

open Indexing

variable {collection key element : Value}

/-- Put to a known collection, a known key gives the part at the step that it stands for. -/
theorem index_eq_ok_iff (hcollection : collection.isKnown = true) (hkey : key.hasPayload = true) :
    index collection key = .ok element ↔
      ∃ step : Step, step.IsFor key ∧ collection.part? step = some element := by
  have hkeyNull : key.isNull = false := (Value.hasPayload_iff.mp hkey).2
  have hkeyTy := Conversion.ty_ne_dynamic hkey
  cases collection
  case unknown => cases hcollection
  case null =>
    refine iff_of_false (fun hindex => nomatch hindex) ?_
    rintro ⟨step, -, hpart⟩
    cases step <;> cases hpart
  all_goals
    rw [index_of_ty_ne_dynamic rfl hkeyNull (by simp [Value.ty]) hkeyTy]
  case list source items =>
    exact pick_sequence_eq_ok_iff rfl hkey rfl fun _ => rfl
  case tuple items =>
    exact pick_sequence_eq_ok_iff rfl hkey rfl (ofTuple_tuple items)
  case map source entries =>
    exact pick_named_eq_ok_iff rfl hkey fun _ => rfl
  case object attributes =>
    exact pick_named_eq_ok_iff rfl hkey fun _ => rfl
  all_goals
    refine iff_of_false (fun hindex => nomatch hindex) ?_
    rintro ⟨step, -, hpart⟩
    cases step <;> cases hpart

theorem knownAlong_cons {keys : List Value} (hknown : collection.isKnown = true)
    (hindex : index collection key = .ok element) (halong : KnownAlong keys element) :
    KnownAlong (key :: keys) collection := by
  refine ⟨hknown, fun other hother => ?_⟩
  obtain rfl := Except.ok.inj (hindex.symm.trans hother)
  exact halong

namespace Ty

variable {ty wanted : Ty} {step : Step}

theorem elementFor?_of_isFor (hstep : step.IsFor key) (hwanted : ty.wanted? step = some wanted) :
    ty.elementFor? key = some wanted := by
  cases step with
  | position index =>
    cases ty <;> simp only [wanted?, part?, reduceCtorEq] at hwanted
    case list | dynamic => exact hwanted
    case tuple elements =>
      rw [elementFor?, show Indexing.target key = .ok (.at index) from hstep]
      exact hwanted
  | key name =>
    cases ty <;> simp only [wanted?, part?, reduceCtorEq] at hwanted
    case map | dynamic => exact hwanted
    case object attributes =>
      rw [elementFor?, show Indexing.name key = .ok (some name) from hstep]
      exact hwanted
  | member name => exact hstep.elim

theorem elementFor?_of_omits (homits : ty.Omits key) : ty.elementFor? key = none := by
  obtain ⟨attributes, name, rfl, hname, hlookup⟩ := homits
  rw [elementFor?, hname]
  exact hlookup

theorem wellFormed_of_elementFor? (hty : ty.WellFormed)
    (hwanted : ty.elementFor? key = some wanted) : wanted.WellFormed := by
  cases ty <;> simp only [elementFor?, reduceCtorEq, Option.some.injEq] at hwanted
  case list | map | dynamic => exact hwanted ▸ hty
  case tuple elements =>
    split at hwanted
    · exact elementsWellFormed_iff.mp hty _ (List.mem_of_getElem? hwanted)
    · cases hwanted
  case object attributes =>
    split at hwanted
    · exact attributesWellFormed_iff.mp hty.2 _ (Record.mem_of_lookup hwanted)
    · cases hwanted

end Ty

namespace Conversion

open Rule

variable {value converted result : Value} {target : Ty} {step : Step} {keys : List Value}

/-- Only an object type has no type for a part, where it does not declare the name. -/
theorem omits_of_wanted?_eq_none (hvalue : value.WellFormed) (htarget : target.WellFormed)
    (hconvert : convert value target = .ok converted) (hstep : step.IsFor key)
    (hpart : value.part? step = some element) (hwanted : target.wanted? step = none) :
    target.Omits key := by
  have hpayload : value.hasPayload = true := by
    cases hstate : value.hasPayload with
    | true => rfl
    | false => exact nomatch (Value.part?_of_vacant hstate step).symm.trans hpart
  cases target with
  | dynamic => cases hwanted
  | string | bool | hostNumber | capsule =>
    rcases leads_scalar (by trivial) (leads_of_convert hconvert) with hdynamic | hscalar
    · exact absurd hdynamic (ty_ne_dynamic hpayload)
    · exact nomatch (Value.part?_of_scalar hscalar step).symm.trans hpart
  | list element =>
    obtain ⟨items, -, -, hitems, -⟩ := convert_list_inversion hvalue hpayload hconvert
    rw [Value.part?_of_sequence? hitems] at hpart
    cases step with
    | position index => cases hwanted
    | key name | member name => cases hpart
  | map element =>
    obtain ⟨entries, -, -, hentries, -⟩ := convert_map_inversion hvalue hpayload hconvert
    rw [Value.part?_of_named? hentries] at hpart
    cases step with
    | position index => cases hpart
    | key name | member name => cases hwanted
  | tuple elements =>
    obtain ⟨items, -, hitems, hlength, -⟩ := convert_tuple_inversion hpayload hconvert
    rw [Value.part?_of_sequence? hitems] at hpart
    cases step with
    | position index =>
      obtain ⟨hindex, -⟩ := List.getElem?_eq_some_iff.mp hpart
      have houtside := List.getElem?_eq_none_iff.mp hwanted
      omega
    | key name | member name => cases hpart
  | object wanted =>
    obtain ⟨attributes, -, rfl, -⟩ := convert_object_inversion htarget.1 hvalue hpayload hconvert
    cases step with
    | position index => cases hpart
    | key name => exact ⟨wanted, name, rfl, hstep, hwanted⟩
    | member name => exact hstep.elim

/-- The element of a converted value is what the element of the source converts to. -/
theorem exists_element_of_index_convert (hvalue : value.WellFormed) (htarget : target.WellFormed)
    (hknown : value.isKnown = true) (hconvert : convert value target = .ok converted)
    (hkey : key.hasPayload = true) (hresult : index converted key = .ok result) :
    ∃ element wanted, index value key = .ok element ∧ target.elementFor? key = some wanted ∧
      convert element wanted = .ok result := by
  have hconverted := (isKnown_convert hvalue htarget hconvert).trans hknown
  obtain ⟨step, hstep, hpart⟩ := (index_eq_ok_iff hconverted hkey).mp hresult
  have hparts := partConverts hvalue htarget hconvert step
  rw [hpart] at hparts
  generalize hsource : value.part? step = source at hparts
  generalize hwanted : target.wanted? step = wanted at hparts
  cases hparts with
  | converted hconvert =>
    exact ⟨_, _, (index_eq_ok_iff hknown hkey).mpr ⟨step, hstep, hsource⟩,
      Ty.elementFor?_of_isFor hstep hwanted, hconvert⟩

/-- An element of the source is there in the converted value too, unless the target is an object
type that does not declare it. -/
theorem exists_index_convert_iff (hvalue : value.WellFormed) (htarget : target.WellFormed)
    (hknown : value.isKnown = true) (hconvert : convert value target = .ok converted)
    (hkey : key.hasPayload = true) (helement : index value key = .ok element) :
    (∃ result, index converted key = .ok result) ↔ ¬target.Omits key := by
  constructor
  · rintro ⟨result, hresult⟩ homits
    obtain ⟨_, wanted, -, hwanted, -⟩ :=
      exists_element_of_index_convert hvalue htarget hknown hconvert hkey hresult
    exact nomatch (Ty.elementFor?_of_omits homits).symm.trans hwanted
  · intro homits
    have hconverted := (isKnown_convert hvalue htarget hconvert).trans hknown
    obtain ⟨step, hstep, hpart⟩ := (index_eq_ok_iff hknown hkey).mp helement
    have hparts := partConverts hvalue htarget hconvert step
    rw [hpart] at hparts
    generalize hwanted : target.wanted? step = wanted at hparts
    generalize hresult : converted.part? step = part at hparts
    cases hparts with
    | converted => exact ⟨_, (index_eq_ok_iff hconverted hkey).mpr ⟨step, hstep, hresult⟩⟩
    | unwanted =>
      exact absurd (omits_of_wanted?_eq_none hvalue htarget hconvert hstep hpart hwanted) homits

theorem exists_element_of_indexAlong_convert (hvalue : value.WellFormed)
    (htarget : target.WellFormed) (hknown : KnownAlong keys value)
    (hconvert : convert value target = .ok converted) (hkeys : ∀ key ∈ keys, key.hasPayload = true)
    (hresult : indexAlong keys converted = .ok result) :
    ∃ element wanted, indexAlong keys value = .ok element ∧
      target.elementAlong? keys = some wanted ∧ convert element wanted = .ok result := by
  induction keys generalizing value target converted with
  | nil =>
    obtain rfl := Except.ok.inj hresult
    exact ⟨value, target, rfl, rfl, hconvert⟩
  | cons key keys ih =>
    obtain ⟨hkey, hkeys⟩ := List.forall_mem_cons.mp hkeys
    obtain ⟨next, hnext, hrest⟩ := bind_eq_ok_iff.mp hresult
    obtain ⟨source, wanted, hsource, hwanted, hpart⟩ :=
      exists_element_of_index_convert hvalue htarget hknown.1 hconvert hkey hnext
    obtain ⟨element, found, helement, hfound, hmade⟩ :=
      ih (wellFormed_of_index hvalue hsource) (Ty.wellFormed_of_elementFor? htarget hwanted)
        (hknown.2 source hsource) hpart hkeys hrest
    refine ⟨element, found, bind_eq_ok_iff.mpr ⟨source, hsource, helement⟩, ?_, hmade⟩
    rw [Ty.elementAlong?, hwanted, Option.bind_some, hfound]

theorem exists_indexAlong_convert_iff (hvalue : value.WellFormed) (htarget : target.WellFormed)
    (hknown : KnownAlong keys value) (hconvert : convert value target = .ok converted)
    (hkeys : ∀ key ∈ keys, key.hasPayload = true) (helement : indexAlong keys value = .ok element) :
    (∃ result, indexAlong keys converted = .ok result) ↔ ¬target.OmitsAlong keys := by
  induction keys generalizing value target converted with
  | nil => exact iff_of_true ⟨converted, rfl⟩ not_false
  | cons key keys ih =>
    obtain ⟨hkey, hkeys⟩ := List.forall_mem_cons.mp hkeys
    obtain ⟨source, hsource, hrest⟩ := bind_eq_ok_iff.mp helement
    have hstep := exists_index_convert_iff hvalue htarget hknown.1 hconvert hkey hsource
    have hinner {next : Value} (hnext : index converted key = .ok next) :
        ∃ wanted, target.elementFor? key = some wanted ∧
          ((∃ result, indexAlong keys next = .ok result) ↔ ¬wanted.OmitsAlong keys) := by
      obtain ⟨found, wanted, hfound, hwanted, hpart⟩ :=
        exists_element_of_index_convert hvalue htarget hknown.1 hconvert hkey hnext
      obtain rfl := Except.ok.inj (hsource.symm.trans hfound)
      exact ⟨wanted, hwanted, ih (wellFormed_of_index hvalue hsource)
        (Ty.wellFormed_of_elementFor? htarget hwanted) (hknown.2 source hsource) hpart hkeys hrest⟩
    constructor
    · rintro ⟨result, hresult⟩
      obtain ⟨next, hnext, hnextRest⟩ := bind_eq_ok_iff.mp hresult
      obtain ⟨wanted, hwanted, hiff⟩ := hinner hnext
      rintro (homits | ⟨other, hother, homits⟩)
      · exact hstep.mp ⟨next, hnext⟩ homits
      · obtain rfl := Option.some.inj (hwanted.symm.trans hother)
        exact hiff.mp ⟨result, hnextRest⟩ homits
    · intro homits
      obtain ⟨next, hnext⟩ := hstep.mpr fun hhere => homits (Or.inl hhere)
      obtain ⟨wanted, hwanted, hiff⟩ := hinner hnext
      obtain ⟨result, hresult⟩ := hiff.mpr fun hthere => homits (Or.inr ⟨wanted, hwanted, hthere⟩)
      exact ⟨result, bind_eq_ok_iff.mpr ⟨next, hnext, hresult⟩⟩

/-- Conversion goes along with indexing. What a known key, or one known key after the other, leads
to in a converted value is what it leads to in the source, converted to the type that the target has
for it, and it leads to something unless an object type on the way does not declare the name. -/
theorem index_convert (hvalue : value.WellFormed) (htarget : target.WellFormed)
    (hknown : value.isKnown = true) (hconvert : convert value target = .ok converted) :
    (∀ key, key.hasPayload = true →
      (∀ result, index converted key = .ok result → ∃ element wanted,
        index value key = .ok element ∧ target.elementFor? key = some wanted ∧
        convert element wanted = .ok result) ∧
      ∀ element, index value key = .ok element →
        ((∃ result, index converted key = .ok result) ↔ ¬target.Omits key)) ∧
    ∀ keys, (∀ key ∈ keys, key.hasPayload = true) → KnownAlong keys value →
      (∀ result, indexAlong keys converted = .ok result → ∃ element wanted,
        indexAlong keys value = .ok element ∧ target.elementAlong? keys = some wanted ∧
        convert element wanted = .ok result) ∧
      ∀ element, indexAlong keys value = .ok element →
        ((∃ result, indexAlong keys converted = .ok result) ↔ ¬target.OmitsAlong keys) := by
  refine ⟨fun key hkey => ⟨fun result hresult => ?_, fun element helement => ?_⟩,
    fun keys hkeys hknown => ⟨fun result hresult => ?_, fun element helement => ?_⟩⟩
  · exact exists_element_of_index_convert hvalue htarget hknown hconvert hkey hresult
  · exact exists_index_convert_iff hvalue htarget hknown hconvert hkey helement
  · exact exists_element_of_indexAlong_convert hvalue htarget hknown hconvert hkeys hresult
  · exact exists_indexAlong_convert_iff hvalue htarget hknown hconvert hkeys helement

/-- A row is found by a truth value that spells its name and by positions, and the attribute that
the target leaves out is not found. -/
theorem index_convert_rows :
    let row : Value := .tuple [.string "true", .string "false"]
    let rows : Value := .list (.tuple [.string, .string]) [row]
    let value : Value := .object [("note", .string "x"), ("true", rows)]
    let target : Ty := .object [("true", .tuple [.list .bool])]
    let converted : Value := .object [("true", .tuple [.list .bool [.bool true, .bool false]])]
    let keys : List Value := [.bool true, .number 0, .number 1]
    value.WellFormed ∧ target.WellFormed ∧ value.isKnown = true ∧
      convert value target = .ok converted ∧ (∀ key ∈ keys, key.hasPayload = true) ∧
      KnownAlong keys value ∧ indexAlong keys converted = .ok (.bool false) ∧
      (∃ element wanted, indexAlong keys value = .ok element ∧
        target.elementAlong? keys = some wanted ∧ convert element wanted = .ok (.bool false)) ∧
      (Value.string "note").hasPayload = true ∧
      index value (.string "note") = .ok (.string "x") ∧ target.Omits (.string "note") ∧
      ¬∃ result, index converted (.string "note") = .ok result := by
  intro row rows value target converted keys
  have hrowsFormed : rows.WellFormed := by
    simp [rows, row, Value.WellFormed, Value.ItemsWellFormed, Ty.WellFormed,
      Ty.ElementsWellFormed, Value.ty, Value.tys]
  have hvalue : value.WellFormed := ⟨by decide, trivial, hrowsFormed, trivial⟩
  have htarget : target.WellFormed := by
    simp [target, Ty.WellFormed, Ty.AttributesWellFormed, Ty.ElementsWellFormed, Record.Ordered]
  have hconvert : convert value target = .ok converted := by rfl
  have hkeys : ∀ key ∈ keys, key.hasPayload = true := by simp [keys, Value.hasPayload]
  have hrows : index value (.bool true) = .ok rows := by rfl
  have hrow : index rows (.number 0) = .ok row := by rfl
  have hitem : index row (.number 1) = .ok (.string "false") := by rfl
  have halong : KnownAlong keys value :=
    knownAlong_cons rfl hrows (knownAlong_cons rfl hrow (knownAlong_cons rfl hitem trivial))
  have hresult : indexAlong keys converted = .ok (.bool false) := by rfl
  have hnote : index value (.string "note") = .ok (.string "x") := by rfl
  have homits : target.Omits (.string "note") := ⟨_, "note", rfl, Indexing.name_string _, rfl⟩
  obtain ⟨hstep, hpath⟩ := index_convert hvalue htarget rfl hconvert
  exact ⟨hvalue, htarget, rfl, hconvert, hkeys, halong, hresult,
    (hpath keys hkeys halong).1 _ hresult, rfl, hnote, homits, fun hfound =>
      ((hstep (.string "note") rfl).2 _ hnote).mp hfound homits⟩

end Conversion

end LedgerValue

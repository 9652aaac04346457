import LedgerValue.Proofs.Canonical.Rereading
import Mathlib.Data.List.Perm.Subperm

/-!
# What the reader takes

A JSON value matches a type if it is null, or a leaf that spells a value of the type, or is built
like the type: arrays for tuples have an item for each position, and objects for object types have
the declared names and no others. The reader takes exactly what matches (`exists_readValue_iff`),
and never puts a list or map together from elements of different types
(`isRegular_of_readValue`). Main statement: `readValue_strict`.
-/

namespace LedgerValue.Canonical

/-- The JSON value is what the type calls for, at every depth. -/
inductive Matches : Ty → Json → Prop
  /-- Null is a value of every type. -/
  | null (ty : Ty) : Matches ty .null
  /-- Every text is a string. -/
  | string (text : String) : Matches .string (.string text)
  /-- Every truth value is one. -/
  | bool (value : Bool) : Matches .bool (.bool value)
  /-- A host number is a ratio. -/
  | hostNumber {text : String} {numerator denominator : Int}
      (hratio : readRatio? text.toList = some (numerator, denominator))
      (hdenominator : denominator ≠ 0) : Matches .hostNumber (.string text)
  /-- An exact number is a ratio. -/
  | number {text : String} {numerator denominator : Int}
      (hratio : readRatio? text.toList = some (numerator, denominator))
      (hdenominator : denominator ≠ 0) : Matches .number (.string text)
  /-- An amount is a word with a sign. -/
  | amount {raw : Int} (hraw : Word.IsSigned raw) : Matches .assetAmount (.integer raw)
  /-- A foreign payload is a text of hexadecimal digits. -/
  | foreign (capsule : String) {text : String} {payload : List UInt8}
      (hpayload : Text.ofHex? text.toList = some payload) :
      Matches (.capsule (.foreign capsule)) (.string text)
  /-- Every item of a list matches the one element type. -/
  | list {element : Ty} {items : List Json} (hitems : ∀ item ∈ items, Matches element item) :
      Matches (.list element) (.array items)
  /-- Every member of a map matches the one element type. -/
  | map {element : Ty} {members : List (String × Json)}
      (hmembers : ∀ member ∈ members, Matches element member.2) :
      Matches (.map element) (.object members)
  /-- A tuple has an item for each position, and each matches its type. -/
  | tuple {elements : List Ty} {items : List Json} (hlength : items.length = elements.length)
      (hitems : ∀ place ∈ elements.zip items, Matches place.1 place.2) :
      Matches (.tuple elements) (.array items)
  /-- An object has the declared names and no others, and each member matches its type. -/
  | object {attributes : List (String × Ty)} {members : List (String × Json)}
      (hnames : (members.map Prod.fst).Perm (attributes.map Prod.fst))
      (hmembers : ∀ declared ∈ attributes, ∀ member,
        members.lookup declared.1 = some member → Matches declared.2 member) :
      Matches (.object attributes) (.object members)

/-- The error is not that a list or map was put together from elements of different types. -/
def IsRegular (error : CanonicalError) : Prop := ∀ fault, error ≠ .element fault

variable {ty element : Ty} {json : Json} {value : Value} {error cause : CanonicalError}
  {elements : List Ty} {attributes : List (String × Ty)} {jsons : List Json}
  {members : List (String × Json)} {capsule : String} {raw : Int} {number : Number}
  {payload : List UInt8}

section Leaves

@[simp]
theorem require_eq_ok_iff {α : Type} {expected : Expectation} {found : Option α} {a : α} :
    require expected found = .ok a ↔ found = some a := by
  cases found <;> simp [require, refuse]

@[simp]
theorem text?_eq_some_iff {text : String} : json.text? = some text ↔ json = .string text := by
  cases json <;> simp [Json.text?]

theorem word?_eq_some_iff : json.word? = some raw ↔ Word.IsSigned raw ∧ json = .integer raw := by
  cases json <;> simp [Json.word?]

@[simp]
theorem items?_eq_some_iff : json.items? = some jsons ↔ json = .array jsons := by
  cases json <;> simp [Json.items?]

@[simp]
theorem members?_eq_some_iff : json.members? = some members ↔ json = .object members := by
  cases json <;> simp [Json.members?]

theorem exists_readNumber_iff :
    (∃ number, readNumber json = .ok number) ↔
      ∃ text numerator denominator, json = .string text ∧
        readRatio? text.toList = some (numerator, denominator) ∧ denominator ≠ 0 := by
  simp only [readNumber, bind_eq_ok_iff, require_eq_ok_iff, mapError_eq_ok_iff,
    Option.bind_eq_some_iff, text?_eq_some_iff]
  constructor
  · rintro ⟨number, ⟨numerator, denominator⟩, ⟨text, rfl, hratio⟩, hnumber⟩
    refine ⟨text, numerator, denominator, rfl, hratio, ?_⟩
    rintro rfl
    cases hnumber
  · rintro ⟨text, numerator, denominator, rfl, hratio, hdenominator⟩
    exact ⟨_, _, ⟨text, rfl, hratio⟩, if_neg hdenominator⟩

theorem readPayload_eq_ok_iff :
    readPayload json = .ok payload ↔
      ∃ text, json = .string text ∧ Text.ofHex? text.toList = some payload := by
  simp [readPayload, Option.bind_eq_some_iff]

end Leaves

section Soundness

/-- As many members as declared names, with all declared names among them, leave no room for
others. -/
theorem perm_names_of_lookup (hordered : Record.Ordered attributes)
    (hlength : members.length = attributes.length)
    (hfound : ∀ declared ∈ attributes, ∃ member, members.lookup declared.1 = some member) :
    (members.map Prod.fst).Perm (attributes.map Prod.fst) := by
  have hsubset : attributes.map Prod.fst ⊆ members.map Prod.fst := fun name hname => by
    obtain ⟨declared, hmem, rfl⟩ := List.mem_map.mp hname
    obtain ⟨member, hmember⟩ := hfound declared hmem
    exact List.mem_map.mpr ⟨_, Record.mem_of_lookup hmember, rfl⟩
  have hsubperm := List.subperm_of_subset (Record.nodup_keys_of_ordered hordered) hsubset
  exact (hsubperm.perm_of_length_le (by simp [hlength])).symm

/-- Null is taken under every type, so only other values matter. -/
theorem matches_of_payload (hpayload : json.isNull = false → Matches ty json) :
    Matches ty json := by
  cases json with
  | null => exact .null ty
  | _ => exact hpayload rfl

/-- What can be read matches its type. -/
theorem matches_of_readValue (hty : ty.WellFormed) (hread : readValue ty json = .ok value) :
    Matches ty json := by
  induction ty generalizing json value with
  | string =>
    refine matches_of_payload fun hpayload => ?_
    rw [readValue.eq_def, hpayload, if_neg (by decide)] at hread
    obtain ⟨text, htext, -⟩ := map_eq_ok_iff.mp hread
    obtain rfl := text?_eq_some_iff.mp (require_eq_ok_iff.mp htext)
    exact .string text
  | bool =>
    refine matches_of_payload fun hpayload => ?_
    rw [readValue.eq_def, hpayload, if_neg (by decide)] at hread
    obtain ⟨found, hfound, -⟩ := map_eq_ok_iff.mp hread
    cases json <;> simp only [Json.bool?, require_eq_ok_iff, reduceCtorEq] at hfound
    exact .bool _
  | hostNumber =>
    refine matches_of_payload fun hpayload => ?_
    rw [readValue.eq_def, hpayload, if_neg (by decide)] at hread
    obtain ⟨x, hx, -⟩ := map_eq_ok_iff.mp hread
    obtain ⟨number, hnumber, -⟩ := bind_eq_ok_iff.mp hx
    obtain ⟨text, _, _, rfl, hratio, hdenominator⟩ := exists_readNumber_iff.mp ⟨number, hnumber⟩
    exact .hostNumber hratio hdenominator
  | capsule kind =>
    refine matches_of_payload fun hpayload => ?_
    rw [readValue.eq_def, hpayload, if_neg (by decide)] at hread
    cases kind with
    | number =>
      obtain ⟨number, hnumber, -⟩ := map_eq_ok_iff.mp hread
      obtain ⟨text, _, _, rfl, hratio, hdenominator⟩ := exists_readNumber_iff.mp ⟨number, hnumber⟩
      exact .number hratio hdenominator
    | assetAmount =>
      obtain ⟨raw, hraw, -⟩ := map_eq_ok_iff.mp hread
      obtain ⟨hsigned, rfl⟩ := word?_eq_some_iff.mp (require_eq_ok_iff.mp hraw)
      exact .amount hsigned
    | foreign capsule =>
      obtain ⟨payload, hread, -⟩ := map_eq_ok_iff.mp hread
      obtain ⟨text, rfl, hhex⟩ := readPayload_eq_ok_iff.mp hread
      exact .foreign capsule hhex
  | list element ih =>
    refine matches_of_payload fun hpayload => ?_
    rw [readValue.eq_def, hpayload, if_neg (by decide)] at hread
    obtain ⟨jsons, hjsons, hread⟩ := bind_eq_ok_iff.mp hread
    obtain ⟨items, hitems, -⟩ := bind_eq_ok_iff.mp hread
    obtain rfl := items?_eq_some_iff.mp (require_eq_ok_iff.mp hjsons)
    refine .list fun json hmem => ?_
    obtain ⟨item, -, hitem⟩ := exists_of_mem_of_forall₂ (eachItem_eq_ok_iff.mp hitems) hmem
    exact ih hty hitem
  | map element ih =>
    refine matches_of_payload fun hpayload => ?_
    rw [readValue.eq_def, hpayload, if_neg (by decide)] at hread
    obtain ⟨members, hmembers, hread⟩ := bind_eq_ok_iff.mp hread
    obtain ⟨entries, hentries, -⟩ := bind_eq_ok_iff.mp hread
    obtain rfl := members?_eq_some_iff.mp (require_eq_ok_iff.mp hmembers)
    refine .map fun member hmem => ?_
    obtain ⟨entry, -, -, hentry⟩ := exists_of_mem_of_forall₂ (eachEntry_eq_ok_iff.mp hentries) hmem
    exact ih hty hentry
  | tuple elements ih =>
    refine matches_of_payload fun hpayload => ?_
    rw [readValue.eq_def, hpayload, if_neg (by decide)] at hread
    obtain ⟨jsons, hjsons, hread⟩ := bind_eq_ok_iff.mp hread
    split at hread
    · rename_i hlength
      obtain ⟨items, hitems, -⟩ := map_eq_ok_iff.mp hread
      obtain rfl := items?_eq_some_iff.mp (require_eq_ok_iff.mp hjsons)
      refine .tuple hlength fun place hmem => ?_
      obtain ⟨item, -, hitem⟩ :=
        exists_of_mem_of_forall₂ ((readPositions_eq_ok_iff hlength).mp hitems) hmem
      have helement := (List.of_mem_zip hmem).1
      exact ih place.1 helement (Ty.elementsWellFormed_iff.mp hty place.1 helement) hitem
    · cases hread
  | object attributes ih =>
    refine matches_of_payload fun hpayload => ?_
    rw [readValue.eq_def, hpayload, if_neg (by decide)] at hread
    obtain ⟨members, hmembers, hread⟩ := bind_eq_ok_iff.mp hread
    split at hread
    · rename_i hlength
      obtain ⟨entries, hentries, -⟩ := map_eq_ok_iff.mp hread
      obtain rfl := members?_eq_some_iff.mp (require_eq_ok_iff.mp hmembers)
      have hfound : ∀ declared ∈ attributes, ∃ member, members.lookup declared.1 = some member ∧
          ∃ part, readValue declared.2 member = .ok part := fun declared hmem => by
        obtain ⟨entry, -, -, member, hmember, hentry⟩ :=
          exists_of_mem_of_forall₂ (readAttributes_eq_ok_iff.mp hentries) hmem
        exact ⟨member, hmember, entry.2, hentry⟩
      refine .object (perm_names_of_lookup hty.1 hlength fun declared hmem => ?_)
        fun declared hmem member hmember => ?_
      · obtain ⟨member, hmember, -⟩ := hfound declared hmem
        exact ⟨member, hmember⟩
      · obtain ⟨found, hlookup, part, hpart⟩ := hfound declared hmem
        obtain rfl := Option.some.inj (hmember.symm.trans hlookup)
        exact ih declared hmem (Ty.attributesWellFormed_iff.mp hty.2 declared hmem) hpart
    · cases hread
  | dynamic =>
    refine matches_of_payload fun hpayload => ?_
    rw [readValue.eq_def, hpayload, if_neg (by decide)] at hread
    cases hread

end Soundness

section Completeness

theorem readValue_null (ty : Ty) : readValue ty .null = .ok (.null ty) := by
  rw [readValue.eq_def]
  rfl

theorem readValue_list :
    readValue (.list element) (.array jsons) =
      (eachItem CanonicalError.under (readValue element) 0 jsons).bind fun values =>
        checked (Value.ofItems element values) := by
  rw [readValue.eq_def]
  rfl

theorem readValue_map :
    readValue (.map element) (.object members) =
      (eachEntry CanonicalError.under (readValue element) members).bind fun entries =>
        checked (Value.ofEntries element (Record.ofList entries)) := by
  rw [readValue.eq_def]
  rfl

theorem readValue_tuple (hlength : jsons.length = elements.length) :
    readValue (.tuple elements) (.array jsons) =
      (readPositions elements 0 jsons).map .tuple := by
  rw [readValue.eq_def]
  exact if_pos hlength

theorem readValue_object (hlength : members.length = attributes.length) :
    readValue (.object attributes) (.object members) =
      (readAttributes attributes members).map .object := by
  rw [readValue.eq_def]
  exact if_pos hlength

/-- What is read for a list has the element type. -/
theorem ty_of_items {items : List Value} (helement : element.WellFormed)
    (hread : List.Forall₂ (fun json item => readValue element json = .ok item) jsons items) :
    ∀ item ∈ items, item.ty = element := by
  intro item hmem
  obtain ⟨json, -, hitem⟩ := exists_of_mem_of_forall₂ hread.flip hmem
  exact (restored_of_readValue helement hitem).ty_eq

/-- What is read for a map has the element type. -/
theorem ty_of_members {entries : List (String × Value)} (helement : element.WellFormed)
    (hread : List.Forall₂ (fun member entry => member.1 = entry.1 ∧
      readValue element member.2 = .ok entry.2) members entries) :
    ∀ entry ∈ Record.ofList entries, entry.2.ty = element := by
  intro entry hmem
  obtain ⟨member, -, -, hentry⟩ :=
    exists_of_mem_of_forall₂ hread.flip (Record.mem_of_mem_ofList hmem)
  exact (restored_of_readValue helement hentry).ty_eq

theorem exists_readValue_list (helement : element.WellFormed)
    (hitems : ∀ json ∈ jsons, ∃ item, readValue element json = .ok item) :
    ∃ value, readValue (.list element) (.array jsons) = .ok value := by
  obtain ⟨items, hread⟩ := exists_forall₂ hitems
  have htys := ty_of_items helement hread
  refine ⟨.list element items, ?_⟩
  rw [readValue_list]
  refine bind_eq_ok_iff.mpr ⟨items, eachItem_eq_ok_iff.mpr hread, ?_⟩
  exact mapError_eq_ok_iff.mpr (Value.ofItems_eq_ok_iff.mpr ⟨htys, rfl⟩)

theorem exists_readValue_map (helement : element.WellFormed)
    (hmembers : ∀ member ∈ members, ∃ part, readValue element member.2 = .ok part) :
    ∃ value, readValue (.map element) (.object members) = .ok value := by
  have hnamed : ∀ member ∈ members, ∃ entry : String × Value,
      member.1 = entry.1 ∧ readValue element member.2 = .ok entry.2 := fun member hmem => by
    obtain ⟨part, hpart⟩ := hmembers member hmem
    exact ⟨(member.1, part), rfl, hpart⟩
  obtain ⟨entries, hread⟩ := exists_forall₂ hnamed
  have htys := ty_of_members helement hread
  refine ⟨.map element (Record.ofList entries), ?_⟩
  rw [readValue_map]
  refine bind_eq_ok_iff.mpr ⟨entries, eachEntry_eq_ok_iff.mpr hread, ?_⟩
  exact mapError_eq_ok_iff.mpr (Value.ofEntries_eq_ok_iff.mpr ⟨htys, rfl⟩)

theorem exists_readValue_tuple (hlength : jsons.length = elements.length)
    (hitems : ∀ place ∈ elements.zip jsons, ∃ item, readValue place.1 place.2 = .ok item) :
    ∃ value, readValue (.tuple elements) (.array jsons) = .ok value := by
  obtain ⟨items, hread⟩ := exists_forall₂ hitems
  refine ⟨.tuple items, ?_⟩
  rw [readValue_tuple hlength]
  exact map_eq_ok_iff.mpr ⟨items, (readPositions_eq_ok_iff hlength).mpr hread, rfl⟩

theorem exists_readValue_object
    (hnames : (members.map Prod.fst).Perm (attributes.map Prod.fst))
    (hmembers : ∀ declared ∈ attributes, ∀ member, members.lookup declared.1 = some member →
      ∃ part, readValue declared.2 member = .ok part) :
    ∃ value, readValue (.object attributes) (.object members) = .ok value := by
  have hnamed : ∀ declared ∈ attributes, ∃ entry : String × Value, declared.1 = entry.1 ∧
      ∃ member, members.lookup declared.1 = some member ∧
        readValue declared.2 member = .ok entry.2 := fun declared hmem => by
    have hname := hnames.mem_iff.mpr (List.mem_map_of_mem hmem)
    obtain ⟨member, hmember⟩ := Record.exists_lookup_of_mem_keys hname
    obtain ⟨part, hpart⟩ := hmembers declared hmem member hmember
    exact ⟨(declared.1, part), rfl, member, hmember, hpart⟩
  obtain ⟨entries, hread⟩ := exists_forall₂ hnamed
  have hlength : members.length = attributes.length := by
    simpa only [List.length_map] using hnames.length_eq
  refine ⟨.object entries, ?_⟩
  rw [readValue_object hlength]
  exact map_eq_ok_iff.mpr ⟨entries, readAttributes_eq_ok_iff.mpr hread, rfl⟩

/-- What matches a type can be read under it. The proof follows the match. -/
theorem exists_readValue_of_matches (hty : ty.WellFormed) (hmatches : Matches ty json) :
    ∃ value, readValue ty json = .ok value := by
  induction hmatches with
  | null ty => exact ⟨_, readValue_null ty⟩
  | string text => exact ⟨.string text, by rw [readValue.eq_def]; rfl⟩
  | bool value => exact ⟨.bool value, by rw [readValue.eq_def]; rfl⟩
  | hostNumber hratio hdenominator =>
    obtain ⟨number, hnumber⟩ := exists_readNumber_iff.mpr ⟨_, _, _, rfl, hratio, hdenominator⟩
    exact ⟨_, readValue_of_readNumber hnumber⟩
  | number hratio hdenominator =>
    obtain ⟨number, hnumber⟩ := exists_readNumber_iff.mpr ⟨_, _, _, rfl, hratio, hdenominator⟩
    refine ⟨.number number, ?_⟩
    rw [readValue.eq_def]
    exact map_eq_ok_iff.mpr ⟨number, hnumber, rfl⟩
  | @amount raw hraw =>
    refine ⟨.amount ⟨Int64.ofInt raw⟩, ?_⟩
    rw [readValue.eq_def]
    exact map_eq_ok_iff.mpr
      ⟨_, require_eq_ok_iff.mpr (word?_eq_some_iff.mpr ⟨hraw, rfl⟩), rfl⟩
  | @foreign capsule _ payload hpayload =>
    refine ⟨.foreign capsule payload, ?_⟩
    rw [readValue.eq_def]
    exact map_eq_ok_iff.mpr ⟨_, readPayload_eq_ok_iff.mpr ⟨_, rfl, hpayload⟩, rfl⟩
  | list _ ih => exact exists_readValue_list hty fun json hmem => ih json hmem hty
  | map _ ih => exact exists_readValue_map hty fun member hmem => ih member hmem hty
  | tuple hlength _ ih =>
    refine exists_readValue_tuple hlength fun place hmem => ih place hmem ?_
    exact Ty.elementsWellFormed_iff.mp hty place.1 (List.of_mem_zip hmem).1
  | object hnames _ ih =>
    refine exists_readValue_object hnames fun declared hmem member hmember => ?_
    exact ih declared hmem member hmember (Ty.attributesWellFormed_iff.mp hty.2 declared hmem)

theorem exists_readValue_iff (hty : ty.WellFormed) :
    (∃ value, readValue ty json = .ok value) ↔ Matches ty json :=
  ⟨fun ⟨_, hread⟩ => matches_of_readValue hty hread, exists_readValue_of_matches hty⟩

end Completeness

section Regularity

theorem isRegular_under {step : Step} (hcause : IsRegular cause) :
    IsRegular (.under step cause) := by
  intro fault
  unfold CanonicalError.under
  split
  · simp
  · exact hcause fault

theorem isRegular_of_refuse {α : Type} {expected : Expectation}
    (herror : (refuse expected : Read α) = .error error) : IsRegular error := by
  obtain rfl := Except.error.inj herror
  exact fun fault => by simp [CanonicalError.expected]

theorem isRegular_of_require {α : Type} {expected : Expectation} {found : Option α}
    (herror : require expected found = .error error) : IsRegular error := by
  cases found with
  | some a => cases herror
  | none => exact isRegular_of_refuse herror

theorem isRegular_of_readNumber (herror : readNumber json = .error error) : IsRegular error := by
  rcases bind_eq_error_iff.mp herror with hshape | ⟨_, -, hnumber⟩
  · exact isRegular_of_require hshape
  · obtain ⟨cause, -, rfl⟩ := mapError_eq_error_iff.mp hnumber
    exact fun fault => by simp

/-- A failure is the failure of an item under the type of its position. -/
theorem exists_of_readPositions_eq_error {position : Nat}
    (herror : readPositions elements position jsons = .error error) :
    ∃ element ∈ elements, ∃ json step cause, readValue element json = .error cause ∧
      error = .under step cause := by
  induction elements generalizing position jsons with
  | nil => cases herror
  | cons element elements ih =>
    cases jsons with
    | nil => cases herror
    | cons json jsons =>
      simp only [readPositions, bind_eq_error_iff, mapError_eq_error_iff, map_eq_error_iff]
        at herror
      rcases herror with ⟨cause, hcause, rfl⟩ | ⟨_, _, hrest⟩
      · exact ⟨element, List.mem_cons_self, json, _, cause, hcause, rfl⟩
      · obtain ⟨other, hother, hfound⟩ := ih hrest
        exact ⟨other, List.mem_cons_of_mem _ hother, hfound⟩

/-- A failure is a declared name that is not there or the failure of a member that is. -/
theorem exists_of_readAttributes_eq_error
    (herror : readAttributes attributes members = .error error) :
    (refuse .attributes : Read Value) = .error error ∨
      ∃ declared ∈ attributes, ∃ member cause, readValue declared.2 member = .error cause ∧
        error = .under (.member declared.1) cause := by
  induction attributes with
  | nil => cases herror
  | cons declared rest ih =>
    obtain ⟨name, ty⟩ := declared
    rw [readAttributes] at herror
    split at herror
    · exact Or.inl (congrArg _ (Except.error.inj herror))
    · rename_i member _
      simp only [bind_eq_error_iff, mapError_eq_error_iff, map_eq_error_iff] at herror
      rcases herror with ⟨cause, hcause, rfl⟩ | ⟨_, _, hrest⟩
      · exact Or.inr ⟨(name, ty), List.mem_cons_self, member, cause, hcause, rfl⟩
      · refine (ih hrest).imp_right fun hfound => ?_
        obtain ⟨other, hother, hcause⟩ := hfound
        exact ⟨other, List.mem_cons_of_mem _ hother, hcause⟩

/-- The items of a list have its type, so that the list is never refused. -/
theorem isRegular_list (helement : element.WellFormed)
    (hitems : ∀ json cause, readValue element json = .error cause → IsRegular cause)
    (herror : (eachItem CanonicalError.under (readValue element) 0 jsons).bind
      (fun values => checked (Value.ofItems element values)) = .error error) :
    IsRegular error := by
  rcases bind_eq_error_iff.mp herror with hitem | ⟨items, hread, hbuilt⟩
  · obtain ⟨_, json, cause, -, hcause, rfl⟩ := exists_of_eachItem_eq_error hitem
    exact isRegular_under (hitems json cause hcause)
  · have htys := ty_of_items helement (eachItem_eq_ok_iff.mp hread)
    rw [checked, Value.ofItems_eq_ok_iff.mpr ⟨htys, rfl⟩] at hbuilt
    cases hbuilt

/-- The entries of a map have its type, so that the map is never refused. -/
theorem isRegular_map (helement : element.WellFormed)
    (hmembers : ∀ json cause, readValue element json = .error cause → IsRegular cause)
    (herror : (eachEntry CanonicalError.under (readValue element) members).bind
      (fun entries => checked (Value.ofEntries element (Record.ofList entries))) = .error error) :
    IsRegular error := by
  rcases bind_eq_error_iff.mp herror with hmember | ⟨entries, hread, hbuilt⟩
  · obtain ⟨member, -, cause, hcause, rfl⟩ := exists_of_eachEntry_eq_error hmember
    exact isRegular_under (hmembers member.2 cause hcause)
  · have htys := ty_of_members helement (eachEntry_eq_ok_iff.mp hread)
    rw [checked, Value.ofEntries_eq_ok_iff.mpr ⟨htys, rfl⟩] at hbuilt
    cases hbuilt

/-- No list or map is ever refused for its elements. -/
theorem isRegular_of_readValue (hty : ty.WellFormed) (herror : readValue ty json = .error error) :
    IsRegular error := by
  induction ty generalizing json error with
  | string | bool =>
    rw [readValue.eq_def] at herror
    split at herror
    · cases herror
    · exact isRegular_of_require (map_eq_error_iff.mp herror)
  | hostNumber =>
    rw [readValue.eq_def] at herror
    split at herror
    · cases herror
    · rcases bind_eq_error_iff.mp (map_eq_error_iff.mp herror) with hnumber | ⟨_, -, hguard⟩
      · exact isRegular_of_readNumber hnumber
      · exact isRegular_of_require hguard
  | capsule kind =>
    rw [readValue.eq_def] at herror
    split at herror
    · cases herror
    · cases kind with
      | number => exact isRegular_of_readNumber (map_eq_error_iff.mp herror)
      | assetAmount | foreign => exact isRegular_of_require (map_eq_error_iff.mp herror)
  | list element ih =>
    rw [readValue.eq_def] at herror
    split at herror
    · cases herror
    · rcases bind_eq_error_iff.mp herror with hshape | ⟨jsons, -, hrest⟩
      · exact isRegular_of_require hshape
      · exact isRegular_list (show element.WellFormed from hty) (fun json cause => ih hty) hrest
  | map element ih =>
    rw [readValue.eq_def] at herror
    split at herror
    · cases herror
    · rcases bind_eq_error_iff.mp herror with hshape | ⟨members, -, hrest⟩
      · exact isRegular_of_require hshape
      · exact isRegular_map (show element.WellFormed from hty) (fun json cause => ih hty) hrest
  | tuple elements ih =>
    rw [readValue.eq_def] at herror
    split at herror
    · cases herror
    · rcases bind_eq_error_iff.mp herror with hshape | ⟨jsons, -, hrest⟩
      · exact isRegular_of_require hshape
      · split at hrest
        · obtain ⟨element, hmem, json, step, cause, hcause, rfl⟩ :=
            exists_of_readPositions_eq_error (map_eq_error_iff.mp hrest)
          exact isRegular_under (ih element hmem (Ty.elementsWellFormed_iff.mp hty element hmem)
            hcause)
        · exact isRegular_of_refuse hrest
  | object attributes ih =>
    rw [readValue.eq_def] at herror
    split at herror
    · cases herror
    · rcases bind_eq_error_iff.mp herror with hshape | ⟨members, -, hrest⟩
      · exact isRegular_of_require hshape
      · split at hrest
        · rcases exists_of_readAttributes_eq_error (map_eq_error_iff.mp hrest) with
            hmissing | ⟨declared, hmem, member, cause, hcause, rfl⟩
          · exact isRegular_of_refuse hmissing
          · exact isRegular_under (ih declared hmem
              (Ty.attributesWellFormed_iff.mp hty.2 declared hmem) hcause)
        · exact isRegular_of_refuse hrest
  | dynamic =>
    rw [readValue.eq_def] at herror
    split at herror
    · cases herror
    · exact isRegular_of_refuse herror

end Regularity

/-- The reader goes by the type and is strict. It never puts a list or map together from elements of
different types. What it gives is well formed, has the type and holds nothing unknown, and then the
JSON value matched the type: items for all positions of every tuple, and the declared names and no
others for every object. Whatever matches the type is read. -/
theorem readValue_strict (hty : ty.WellFormed) :
    (∀ error, readValue ty json = .error error → ∀ fault, error ≠ .element fault) ∧
    (∀ value, readValue ty json = .ok value →
      value.WellFormed ∧ value.ty = ty ∧
        (∀ path found, value.at? path ≠ some (.unknown found)) ∧ Matches ty json) ∧
    (Matches ty json → ∃ value, readValue ty json = .ok value) := by
  refine ⟨fun error herror => isRegular_of_readValue hty herror, fun value hread => ?_,
    (exists_readValue_iff hty).mpr⟩
  have hrestored := restored_of_readValue hty hread
  exact ⟨hrestored.wellFormed, hrestored.ty_eq,
    fun path found hpart => (hrestored.measured path _ hpart).1 found rfl,
    (exists_readValue_iff hty).mp ⟨value, hread⟩⟩

/-- Members may come in any order and null may stand for any part, but one name too many is one too
many. -/
theorem readValue_strict_object :
    let ty := Ty.object [("fee", .assetAmount), ("legs", .list (.tuple [.string, .dynamic]))]
    let legs := Json.array [.array [.string "EURT", .null], .null]
    let json := Json.object [("legs", legs), ("fee", .integer (-3))]
    let value := Value.object [("fee", .amount ⟨-3⟩),
      ("legs", .list (.tuple [.string, .dynamic])
        [.tuple [.string "EURT", .null .dynamic], .null (.tuple [.string, .dynamic])])]
    let larger := Json.object [("legs", legs), ("fee", .integer (-3)), ("memo", .null)]
    ty.WellFormed ∧ Matches ty json ∧ readValue ty json = .ok value ∧ value.WellFormed ∧
      value.ty = ty ∧ readValue ty larger = .error (.expected .attributes) ∧
      CanonicalError.expected .attributes ≠ .element (.item 0 .bool .string) ∧
      ¬Matches ty larger := by
  intro ty legs json value larger
  have hty : ty.WellFormed := ⟨by decide, trivial, ⟨trivial, trivial, trivial⟩, trivial⟩
  have hread : readValue ty json = .ok value := by rfl
  have hrefused : readValue ty larger = .error (.expected .attributes) := by rfl
  obtain ⟨hwellFormed, hsame, -, hmatches⟩ := (readValue_strict hty).2.1 value hread
  refine ⟨hty, hmatches, hread, hwellFormed, hsame, hrefused,
    (readValue_strict hty).1 _ hrefused _, fun hlarger => ?_⟩
  obtain ⟨found, hfound⟩ := (readValue_strict hty).2.2 hlarger
  exact nomatch hfound.symm.trans hrefused

end LedgerValue.Canonical

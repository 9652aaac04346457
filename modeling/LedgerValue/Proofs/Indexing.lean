import LedgerValue.Indexing
import LedgerValue.Proofs.Conversion.Refinement

/-!
# Indexing of approximations

An element of a well-formed collection is well formed (`wellFormed_of_index`), and it has the type
that the collection declares for it. Main statement: indexing an approximation covers indexing what
refines it (`covers_index`). A missing element, a null or an unsuitable key is therefore reported
only when it stays so.
-/

namespace LedgerValue

namespace Indexing

variable {collection approximation key approximateKey element : Value} {ty ty' : Ty}
  {elements elements' : List Ty} {position : Nat} {target target' : Target}
  {name name' : Option String}

@[simp]
theorem found_eq_ok_iff {member : Option Value} :
    found member = .ok element ↔ member = some element := by
  cases member <;> simp [found]

@[simp]
theorem name_string (text : String) : Indexing.name (.string text) = .ok (some text) := by
  rw [Indexing.name, convert_of_ty_eq (show (Value.string text).ty = .string from rfl)]
  rfl

theorem covers_found {member member' : Option Value} (hrel : Option.Rel Value.Fills member' member)
    (hmember : ∀ element, member' = some element → element.WellFormed) :
    Covers Value.Refines (found member') (found member) := by
  cases hrel with
  | none => exact covers_of_error rfl
  | some hfills => exact covers_ok ⟨hmember _ rfl, hfills⟩

theorem covers_target (hkey : key.Refines approximateKey) (happroximate : approximateKey.WellFormed)
    (hdynamic : approximateKey.ty ≠ .dynamic) :
    Covers (fun target' target => target = .unknown ∨ target' = target)
      (Indexing.target key) (Indexing.target approximateKey) := by
  refine covers_bind (covers_mapError
    (Conversion.covers_convert_scalar trivial hkey.1 happroximate hdynamic hkey.2)) ?_
  rintro converted approximate (hpayload | rfl)
  · refine covers_of_ok ?_ fun _ _ => Or.inl rfl
    cases approximate <;> first | rfl | cases hpayload
  · exact covers_refl fun _ _ => Or.inr rfl

theorem covers_name (hkey : key.Refines approximateKey) (happroximate : approximateKey.WellFormed)
    (hdynamic : approximateKey.ty ≠ .dynamic) :
    Covers (fun name' name => name = none ∨ name' = name)
      (Indexing.name key) (Indexing.name approximateKey) := by
  refine covers_map (covers_mapError
    (Conversion.covers_convert_scalar trivial hkey.1 happroximate hdynamic hkey.2)) ?_
  rintro converted approximate (hpayload | rfl)
  · left
    cases approximate <;> first | rfl | cases hpayload
  · exact Or.inr rfl

/-- The element of a list has the type that the list declares. -/
theorem ty_of_ofList (hcollection : collection.WellFormed) (hty : collection.ty = .list ty)
    (hfound : ofList ty collection target = .ok element) :
    element.WellFormed ∧ element.ty = ty := by
  have hwellFormed := Value.wellFormed_ty hcollection
  rw [hty] at hwellFormed
  rw [ofList.eq_def] at hfound
  split at hfound
  · cases hfound
  · obtain rfl := Ty.list.inj hty
    have hmem := List.mem_of_getElem? (found_eq_ok_iff.mp hfound)
    obtain ⟨-, htys, hitems⟩ := Value.wellFormed_list_iff.mp hcollection
    exact ⟨hitems element hmem, htys element hmem⟩
  · obtain rfl := Except.ok.inj hfound
    exact ⟨hwellFormed, rfl⟩

/-- The element of a map has the type that the map declares. -/
theorem ty_of_ofMap (hcollection : collection.WellFormed) (hty : collection.ty = .map ty)
    (hfound : ofMap ty collection name = .ok element) :
    element.WellFormed ∧ element.ty = ty := by
  have hwellFormed := Value.wellFormed_ty hcollection
  rw [hty] at hwellFormed
  rw [ofMap.eq_def] at hfound
  split at hfound
  · obtain rfl := Ty.map.inj hty
    have hmem := Record.mem_of_lookup (found_eq_ok_iff.mp hfound)
    obtain ⟨-, htys, -, hentries⟩ := Value.wellFormed_map_iff.mp hcollection
    exact ⟨hentries _ hmem, htys _ hmem⟩
  · obtain rfl := Except.ok.inj hfound
    exact ⟨hwellFormed, rfl⟩

/-- The element of a tuple has the type that the tuple has for the position. -/
theorem ty_of_ofTuple (hcollection : collection.WellFormed) (hty : collection.ty = .tuple elements)
    (hfound : ofTuple elements collection (.at position) = .ok element) :
    element.WellFormed ∧ elements[position]? = some element.ty := by
  have hwellFormed := Value.wellFormed_ty hcollection
  rw [hty] at hwellFormed
  simp only [ofTuple] at hfound
  split at hfound
  · cases hfound
  · rename_i items _
    obtain rfl := Ty.tuple.inj hty
    have hitem := found_eq_ok_iff.mp hfound
    rw [Value.tys_eq_map, List.getElem?_map, hitem]
    exact ⟨Value.wellFormed_tuple_iff.mp hcollection element (List.mem_of_getElem? hitem), rfl⟩
  · rename_i helement _
    obtain rfl := Except.ok.inj hfound
    exact ⟨Ty.elementsWellFormed_iff.mp hwellFormed _ (List.mem_of_getElem? helement), helement⟩

theorem wellFormed_of_ofTuple (hcollection : collection.WellFormed)
    (hty : collection.ty = .tuple elements)
    (hfound : ofTuple elements collection target = .ok element) : element.WellFormed := by
  cases target with
  | unknown =>
    obtain rfl := Except.ok.inj hfound
    trivial
  | nowhere => cases hfound
  | «at» position => exact (ty_of_ofTuple hcollection hty hfound).1

theorem wellFormed_of_ofObject (hcollection : collection.WellFormed)
    (hfound : ofObject collection name = .ok element) : element.WellFormed := by
  rw [ofObject.eq_def] at hfound
  split at hfound
  · have hmem := Record.mem_of_lookup (found_eq_ok_iff.mp hfound)
    exact (Value.wellFormed_object_iff.mp hcollection).2 _ hmem
  · obtain rfl := Except.ok.inj hfound
    trivial

theorem covers_ofList (hcollection : collection.Refines approximation)
    (hty' : collection.ty = .list ty') (hconforms : ty'.Conforms ty)
    (htarget : target = .unknown ∨ target' = target) :
    Covers Value.Refines (ofList ty' collection target') (ofList ty approximation target) := by
  have hunknown : ofList ty approximation target = .ok (.unknown ty) →
      Covers Value.Refines (ofList ty' collection target') (ofList ty approximation target) := by
    refine fun happroximation => covers_of_ok happroximation fun element hfound => ?_
    obtain ⟨hwellFormed, rfl⟩ := ty_of_ofList hcollection.1 hty' hfound
    exact Value.refines_unknown_iff.mpr ⟨hwellFormed, hconforms⟩
  rcases htarget with rfl | rfl
  · exact hunknown (by cases approximation <;> rfl)
  cases approximation
  case list items =>
    obtain ⟨hwellFormed, hfills⟩ := hcollection
    cases collection <;> simp only [Value.Fills, Value.itemsFill_iff] at hfills
    cases target' with
    | unknown => exact hunknown rfl
    | nowhere => exact covers_of_error rfl
    | «at» position =>
      refine covers_found (rel_getElem? hfills.1 position) fun element helement => ?_
      exact Value.wellFormed_items hwellFormed rfl element (List.mem_of_getElem? helement)
  all_goals exact hunknown rfl

theorem covers_ofMap (hcollection : collection.Refines approximation)
    (hty' : collection.ty = .map ty') (hconforms : ty'.Conforms ty)
    (hname : name = none ∨ name' = name) :
    Covers Value.Refines (ofMap ty' collection name') (ofMap ty approximation name) := by
  have hunknown : ofMap ty approximation name = .ok (.unknown ty) →
      Covers Value.Refines (ofMap ty' collection name') (ofMap ty approximation name) := by
    refine fun happroximation => covers_of_ok happroximation fun element hfound => ?_
    obtain ⟨hwellFormed, rfl⟩ := ty_of_ofMap hcollection.1 hty' hfound
    exact Value.refines_unknown_iff.mpr ⟨hwellFormed, hconforms⟩
  rcases hname with rfl | rfl
  · exact hunknown (by cases approximation <;> rfl)
  cases approximation
  case map entries =>
    obtain ⟨hwellFormed, hfills⟩ := hcollection
    cases collection <;> simp only [Value.Fills, Value.entriesFill_iff] at hfills
    cases name' with
    | none => exact hunknown rfl
    | some name =>
      refine covers_found (rel_lookup hfills.1 name) fun element helement => ?_
      exact (Value.wellFormed_entries hwellFormed rfl).2 _ (Record.mem_of_lookup helement)
  all_goals exact hunknown rfl

theorem covers_ofTuple_at (hcollection : collection.Refines approximation)
    (hty' : collection.ty = .tuple elements')
    (hconforms : List.Forall₂ Ty.Conforms elements' elements) (position : Nat) :
    Covers Value.Refines (ofTuple elements' collection (.at position))
      (ofTuple elements approximation (.at position)) := by
  have hrel := rel_getElem? hconforms position
  generalize helement' : elements'[position]? = found' at hrel
  generalize helement : elements[position]? = found at hrel
  cases hrel with
  | none =>
    have hfound : ofTuple elements' collection (.at position) = .error .notFound := by
      simp only [ofTuple, helement']
    exact covers_of_error hfound
  | @some ty' ty hconforms =>
    have hunknown : ofTuple elements approximation (.at position) = .ok (.unknown ty) →
        Covers Value.Refines (ofTuple elements' collection (.at position))
          (ofTuple elements approximation (.at position)) := by
      refine fun happroximation => covers_of_ok happroximation fun element hfound => ?_
      obtain ⟨hwellFormed, hty⟩ := ty_of_ofTuple hcollection.1 hty' hfound
      obtain rfl := Option.some.inj (helement'.symm.trans hty)
      exact Value.refines_unknown_iff.mpr ⟨hwellFormed, hconforms⟩
    cases approximation
    case tuple items =>
      obtain ⟨hwellFormed, hfills⟩ := hcollection
      cases collection <;> simp only [Value.Fills, Value.itemsFill_iff] at hfills
      simp only [ofTuple, helement, helement']
      refine covers_found (rel_getElem? hfills position) fun element helement => ?_
      exact Value.wellFormed_items hwellFormed rfl element (List.mem_of_getElem? helement)
    all_goals exact hunknown (by simp only [ofTuple, helement])

theorem covers_ofTuple (hcollection : collection.Refines approximation)
    (hty' : collection.ty = .tuple elements')
    (hconforms : List.Forall₂ Ty.Conforms elements' elements)
    (htarget : target = .unknown ∨ target' = target) :
    Covers Value.Refines (ofTuple elements' collection target')
      (ofTuple elements approximation target) := by
  have hunknown : target = .unknown → Covers Value.Refines (ofTuple elements' collection target')
      (ofTuple elements approximation target) := by
    rintro rfl
    refine covers_of_ok rfl fun element hfound => ?_
    exact Value.refines_dynamic (wellFormed_of_ofTuple hcollection.1 hty' hfound)
  rcases htarget with hkey | rfl
  · exact hunknown hkey
  cases target' with
  | unknown => exact hunknown rfl
  | nowhere => exact covers_of_error rfl
  | «at» position => exact covers_ofTuple_at hcollection hty' hconforms position

theorem covers_ofObject (hcollection : collection.Refines approximation)
    (hname : name = none ∨ name' = name) :
    Covers Value.Refines (ofObject collection name') (ofObject approximation name) := by
  have hunknown : ofObject approximation name = .ok .dynamic →
      Covers Value.Refines (ofObject collection name') (ofObject approximation name) := by
    refine fun happroximation => covers_of_ok happroximation fun element hfound => ?_
    exact Value.refines_dynamic (wellFormed_of_ofObject hcollection.1 hfound)
  rcases hname with rfl | rfl
  · exact hunknown (by cases approximation <;> rfl)
  cases approximation
  case object attributes =>
    obtain ⟨hwellFormed, hfills⟩ := hcollection
    cases collection <;> simp only [Value.Fills, Value.entriesFill_iff] at hfills
    cases name' with
    | none => exact hunknown rfl
    | some name =>
      refine covers_found (rel_lookup hfills name) fun element helement => ?_
      exact (Value.wellFormed_entries hwellFormed rfl).2 _ (Record.mem_of_lookup helement)
  all_goals exact hunknown rfl

end Indexing

open Indexing

variable {collection approximation key approximateKey element : Value}

theorem index_of_ty_ne_dynamic (hcollection : collection.isNull = false) (hkey : key.isNull = false)
    (hty : collection.ty ≠ .dynamic) (hkeyTy : key.ty ≠ .dynamic) :
    index collection key =
      match collection.ty with
      | .list element => (target key).bind (ofList element collection)
      | .tuple elements => (target key).bind (ofTuple elements collection)
      | .map element => (name key).bind (ofMap element collection)
      | .object _ => (name key).bind (ofObject collection)
      | _ => .error .unsupported := by
  have hdynamic : ¬(collection.ty.isDynamic || key.ty.isDynamic) = true := by
    simp only [Bool.or_eq_true, Ty.isDynamic_iff, not_or]
    exact ⟨hty, hkeyTy⟩
  rw [index, if_neg (by simp [hcollection]), if_neg (by simp [hkey])]
  exact if_neg hdynamic

theorem index_of_ty_eq_dynamic (hcollection : collection.isNull = false) (hkey : key.isNull = false)
    (hty : collection.ty = .dynamic ∨ key.ty = .dynamic) : index collection key = .ok .dynamic := by
  rw [index, if_neg (by simp [hcollection]), if_neg (by simp [hkey]), if_pos]
  simpa using hty

/-- A name leads to the attribute of a known object, if there is one. -/
theorem index_object (attributes : List (String × Value)) (name : String) :
    index (.object attributes) (.string name) = found (attributes.lookup name) := by
  rw [index_of_ty_ne_dynamic rfl rfl (by simp [Value.ty]) (by simp [Value.ty])]
  change (Indexing.name (.string name)).bind (ofObject (.object attributes)) = _
  rw [name_string]
  rfl

theorem index_object_eq_ok_iff {attributes : List (String × Value)} {name : String} :
    index (.object attributes) (.string name) = .ok element ↔
      attributes.lookup name = some element := by
  rw [index_object, found_eq_ok_iff]

/-- Of entries with the same name the last one counts. -/
theorem index_objectOf (entries : List (String × Value)) (name : String) :
    index (.objectOf entries) (.string name) = found (entries.reverse.lookup name) := by
  rw [Value.objectOf, index_object, Record.lookup_ofList]

/-- Unless a text spells a number, what it leads to stands under that name. -/
theorem exists_named?_of_index {text : String} {cause : IndexError}
    (htext : target (.string text) = .error cause)
    (hindex : index collection (.string text) = .ok element)
    (hpayload : element.hasPayload = true) :
    ∃ entries, collection.named? = some entries ∧ entries.lookup text = some element := by
  rw [index] at hindex
  split at hindex
  · cases hindex
  split at hindex
  · cases hindex
  split at hindex
  · obtain rfl := Except.ok.inj hindex
    cases hpayload
  split at hindex
  · rw [htext] at hindex
    cases hindex
  · rw [htext] at hindex
    cases hindex
  · rw [name_string] at hindex
    change ofMap _ collection (some text) = .ok element at hindex
    cases collection
    case map => exact ⟨_, rfl, found_eq_ok_iff.mp hindex⟩
    all_goals
      obtain rfl := Except.ok.inj hindex
      cases hpayload
  · rw [name_string] at hindex
    change ofObject collection (some text) = .ok element at hindex
    cases collection
    case object => exact ⟨_, rfl, found_eq_ok_iff.mp hindex⟩
    all_goals
      obtain rfl := Except.ok.inj hindex
      cases hpayload
  · cases hindex

theorem wellFormed_of_index (hcollection : collection.WellFormed)
    (hindex : index collection key = .ok element) : element.WellFormed := by
  rw [index] at hindex
  split at hindex
  · cases hindex
  split at hindex
  · cases hindex
  split at hindex
  · obtain rfl := Except.ok.inj hindex
    trivial
  split at hindex
  · rename_i hty
    obtain ⟨_, -, hfound⟩ := bind_eq_ok_iff.mp hindex
    exact (ty_of_ofList hcollection hty hfound).1
  · rename_i hty
    obtain ⟨_, -, hfound⟩ := bind_eq_ok_iff.mp hindex
    exact wellFormed_of_ofTuple hcollection hty hfound
  · rename_i hty
    obtain ⟨_, -, hfound⟩ := bind_eq_ok_iff.mp hindex
    exact (ty_of_ofMap hcollection hty hfound).1
  · obtain ⟨_, -, hfound⟩ := bind_eq_ok_iff.mp hindex
    exact wellFormed_of_ofObject hcollection hfound
  · cases hindex

/-- Indexing what refines a collection by what refines a key is covered: the element refines the
element, and where there is none for the approximations there is none at all. -/
theorem covers_index (hcollection : collection.Refines approximation)
    (happroximation : approximation.WellFormed) (hkey : key.Refines approximateKey)
    (happroximate : approximateKey.WellFormed) :
    Covers Value.Refines (index collection key) (index approximation approximateKey) := by
  cases hnull : collection.isNull with
  | true => exact covers_of_error (by rw [index, if_pos hnull])
  | false =>
  cases hnullKey : key.isNull with
  | true => exact covers_of_error (by rw [index, if_neg (by simp [hnull]), if_pos hnullKey])
  | false =>
  have hnull' := Value.isNull_of_fills hcollection.2 hnull
  have hnullKey' := Value.isNull_of_fills hkey.2 hnullKey
  -- Where a type is not known nothing is certain of the element, so every element will do.
  by_cases hdynamic : approximation.ty = .dynamic ∨ approximateKey.ty = .dynamic
  · refine covers_of_ok (index_of_ty_eq_dynamic hnull' hnullKey' hdynamic) fun element hindex => ?_
    exact Value.refines_dynamic (wellFormed_of_index hcollection.1 hindex)
  obtain ⟨hty, hkeyTy⟩ := not_or.mp hdynamic
  have hconforms := Value.conforms_of_fills hcollection.1 happroximation hcollection.2
  have hkeyConforms := Value.conforms_of_fills hkey.1 happroximate hkey.2
  rw [index_of_ty_ne_dynamic hnull hnullKey (Ty.not_dynamic_of_conforms hconforms hty)
    (Ty.not_dynamic_of_conforms hkeyConforms hkeyTy),
    index_of_ty_ne_dynamic hnull' hnullKey' hty hkeyTy]
  cases htyEq : approximation.ty <;> cases htyEq' : collection.ty <;>
    simp only [htyEq, htyEq', Ty.Conforms] at hconforms
  case list.list =>
    refine covers_bind (covers_target hkey happroximate hkeyTy) fun target' target htarget => ?_
    exact covers_ofList hcollection htyEq' hconforms htarget
  case map.map =>
    refine covers_bind (covers_name hkey happroximate hkeyTy) fun name' name hname => ?_
    exact covers_ofMap hcollection htyEq' hconforms hname
  case tuple.tuple =>
    refine covers_bind (covers_target hkey happroximate hkeyTy) fun target' target htarget => ?_
    exact covers_ofTuple hcollection htyEq' (Ty.elementsConform_iff.mp hconforms) htarget
  case object.object =>
    refine covers_bind (covers_name hkey happroximate hkeyTy) fun name' name hname => ?_
    exact covers_ofObject hcollection hname
  all_goals first | exact absurd htyEq hty | exact covers_of_error rfl

end LedgerValue

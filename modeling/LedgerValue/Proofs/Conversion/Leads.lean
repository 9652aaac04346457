import LedgerValue.Conversion.Rule
import LedgerValue.Proofs.Induction
import LedgerValue.Proofs.Outcome
import LedgerValue.Proofs.Record
import LedgerValue.Ty.Conformance
import LedgerValue.Value.WellFormed

/-!
# Which types lead to which

A type leads to another if it is the same or there is a rule from the one to the other. For
collections this goes by the types of the parts (`leads_list_iff`, `leads_map_iff`,
`leads_tuple_iff`, `leads_object_iff`). Main statement: a type leads to every type that it conforms
to (`leads_of_conforms`).
-/

namespace LedgerValue

namespace Ty

@[simp]
theorem elementsConform_iff {ss ts : List Ty} :
    ElementsConform ss ts ↔ List.Forall₂ Conforms ss ts := by
  induction ss generalizing ts with
  | nil => cases ts <;> simp [ElementsConform]
  | cons s ss ih => cases ts <;> simp [ElementsConform, ih]

@[simp]
theorem attributesConform_iff {ss ts : List (String × Ty)} :
    AttributesConform ss ts ↔ List.Forall₂ (fun s t => s.1 = t.1 ∧ s.2.Conforms t.2) ss ts := by
  induction ss generalizing ts with
  | nil => cases ts <;> simp [AttributesConform]
  | cons s ss ih => cases ts <;> simp [AttributesConform, ih, and_assoc]

/-- The type has no parts and is not dynamic. -/
def IsScalar : Ty → Prop
  | string | bool | hostNumber | capsule _ => True
  | _ => False

/-- A scalar type conforms to itself and to the dynamic type only. -/
theorem eq_of_scalar_conforms {ty target : Ty} (hscalar : ty.IsScalar)
    (hconforms : ty.Conforms target) : target = .dynamic ∨ target = ty := by
  cases target with
  | dynamic => exact Or.inl rfl
  | string | bool | hostNumber | capsule => exact Or.inr (Ty.eq_of_conforms hconforms rfl).symm
  | list | map | tuple | object =>
    cases ty <;> simp only [Conforms] at hconforms
    exact hscalar.elim

end Ty

namespace Rule

/-- Values of the first type can be brought to the second. -/
def Leads (source target : Ty) : Prop := source = target ∨ (find? source target).isSome = true

variable {source target element : Ty} {elements : List Ty} {wanted : List (String × Ty)}

@[simp]
theorem leads_refl (ty : Ty) : Leads ty ty := Or.inl rfl

@[simp]
theorem fits_iff_leads : fits source target (find? source target) = true ↔ Leads source target := by
  simp [fits, Leads]

theorem leads_dynamic (source : Ty) : Leads source .dynamic := by
  by_cases hsource : source = .dynamic
  · exact Or.inl hsource
  · exact Or.inr (by rw [find?_dynamic hsource]; rfl)

@[simp]
theorem fitPositions_iff_leads {items : List Ty} :
    fitPositions items elements = true ↔ List.Forall₂ Leads items elements := by
  induction elements generalizing items with
  | nil => cases items <;> simp [fitPositions]
  | cons element elements ih => cases items <;> simp [fitPositions, ih]

@[simp]
theorem fitsEach_iff_leads {item : Ty} :
    fitsEach item elements = true ↔ ∀ element ∈ elements, Leads item element := by
  induction elements with
  | nil => simp [fitsEach]
  | cons element elements ih => simp [fitsEach, ih]

@[simp]
theorem fitAttributes_iff_leads {attributes : List (String × Ty)} :
    fitAttributes attributes wanted = true ↔
      ∀ entry ∈ wanted, ∃ found, attributes.lookup entry.1 = some found ∧ Leads found entry.2 := by
  induction wanted with
  | nil => simp [fitAttributes]
  | cons entry rest ih =>
    obtain ⟨name, ty⟩ := entry
    rw [fitAttributes, List.forall_mem_cons, Bool.and_eq_true, ih]
    cases attributes.lookup name with
    | none => simp
    | some found => simp

theorem leads_scalar (htarget : target.IsScalar) (hleads : Leads source target) :
    source = .dynamic ∨ source.IsScalar := by
  rcases hleads with rfl | hrule
  · exact Or.inr htarget
  · rw [find?.eq_def] at hrule
    cases target <;> cases source <;> simp [Ty.IsScalar] at htarget hrule ⊢
    all_goals
      rename_i kind _
      cases kind <;> simp [NumberSource.ofTy?] at hrule

/-- No known type but itself leads to a capsule, exact numbers apart. -/
theorem leads_capsule {kind : Capsule} (hkind : kind ≠ .number)
    (hleads : Leads source (.capsule kind)) : source = .dynamic ∨ source = .capsule kind := by
  rcases hleads with rfl | hrule
  · exact Or.inr rfl
  · rw [find?.eq_def] at hrule
    cases kind <;> cases source <;> simp at hkind hrule ⊢

/-- The only rule that can lead from one type of collection to another. -/
def collectionRule? : Ty → Ty → Option Rule
  | .list _, .list _ => some listToList
  | .tuple _, .list _ => some tupleToList
  | .map _, .map _ => some mapToMap
  | .object _, .map _ => some objectToMap
  | .tuple _, .tuple _ => some tupleToTuple
  | .list _, .tuple _ => some listToTuple
  | .object _, .object _ => some objectToObject
  | _, _ => none

theorem eq_of_find? {rule expected : Rule} (hrule : find? source target = some rule)
    (hexpected : collectionRule? source target = some expected) : rule = expected := by
  rw [find?.eq_def] at hrule
  cases source <;> cases target <;> cases hexpected
  all_goals
    dsimp only at hrule
    split at hrule
    · cases hrule
    · split at hrule
      · exact (Option.some.inj hrule).symm
      · cases hrule

theorem leads_list_iff :
    Leads source (.list element) ↔ source = .dynamic ∨
      (∃ item, source = .list item ∧ Leads item element) ∨
      ∃ items, source = .tuple items ∧ ∀ item ∈ items, Leads item element := by
  rw [Leads, find?.eq_def]
  cases source with
  | list item =>
    by_cases heq : item = element
    · simp [heq]
    · simp [heq]
  | tuple items => simp
  | _ => simp

theorem leads_map_iff :
    Leads source (.map element) ↔ source = .dynamic ∨
      (∃ entry, source = .map entry ∧ Leads entry element) ∨
      ∃ attributes, source = .object attributes ∧ ∀ entry ∈ attributes, Leads entry.2 element := by
  rw [Leads, find?.eq_def]
  cases source with
  | map entry =>
    by_cases heq : entry = element
    · simp [heq]
    · simp [heq]
  | object attributes => simp
  | _ => simp

theorem leads_tuple_iff :
    Leads source (.tuple elements) ↔ source = .dynamic ∨
      (∃ items, source = .tuple items ∧ List.Forall₂ Leads items elements) ∨
      ∃ item, source = .list item ∧ ∀ element ∈ elements, Leads item element := by
  rw [Leads, find?.eq_def]
  cases source with
  | tuple items =>
    by_cases heq : items = elements
    · simp [heq, List.forall₂_same]
    · simp [heq]
  | list item => simp
  | _ => simp

theorem leads_object_iff (hwanted : Record.Ordered wanted) :
    Leads source (.object wanted) ↔ source = .dynamic ∨
      ∃ attributes, source = .object attributes ∧
        ∀ entry ∈ wanted, ∃ found,
          attributes.lookup entry.1 = some found ∧ Leads found entry.2 := by
  rw [Leads, find?.eq_def]
  cases source with
  | object attributes =>
    by_cases heq : attributes = wanted
    · subst heq
      simp only [true_or, reduceCtorEq, Ty.object.injEq, exists_eq_left', false_or, true_iff]
      exact fun entry hmem =>
        ⟨entry.2, (Record.lookup_eq_some_iff hwanted).mpr hmem, leads_refl _⟩
    · simp [heq]
  | _ => simp

/-- A type can be brought to every type that it is an instance of. -/
theorem leads_of_conforms (htarget : target.WellFormed) (hconforms : source.Conforms target) :
    Leads source target := by
  induction target generalizing source with
  | dynamic => exact leads_dynamic source
  | string | bool | hostNumber | capsule => exact Or.inl (Ty.eq_of_conforms hconforms rfl)
  | list element ih =>
    cases source <;> simp only [Ty.Conforms] at hconforms
    exact leads_list_iff.mpr (Or.inr (Or.inl ⟨_, rfl, ih htarget hconforms⟩))
  | map element ih =>
    cases source <;> simp only [Ty.Conforms] at hconforms
    exact leads_map_iff.mpr (Or.inr (Or.inl ⟨_, rfl, ih htarget hconforms⟩))
  | tuple elements ih =>
    cases source <;> simp only [Ty.Conforms, Ty.elementsConform_iff] at hconforms
    refine leads_tuple_iff.mpr (Or.inr (Or.inl ⟨_, rfl, ?_⟩))
    refine (forall₂_imp_of_mem (fun element hmem item hitem => ?_) hconforms.flip).flip
    exact ih element hmem (Ty.elementsWellFormed_iff.mp htarget element hmem) hitem
  | object wanted ih =>
    cases source <;> simp only [Ty.Conforms, Ty.attributesConform_iff] at hconforms
    refine (leads_object_iff htarget.1).mpr (Or.inr ⟨_, rfl, fun entry hmem => ?_⟩)
    obtain ⟨found, hfound, hname, hty⟩ := exists_of_mem_of_forall₂ hconforms.flip hmem
    have hordered := Record.ordered_of_keys_eq htarget.1
      (keys_eq_of_forall₂ (hconforms.imp fun _ _ h => h.1)).symm
    refine ⟨found.2, (Record.lookup_eq_some_iff hordered).mpr ?_, ?_⟩
    · rw [← hname]
      exact hfound
    · exact ih entry hmem (Ty.attributesWellFormed_iff.mp htarget.2 entry hmem) hty

end Rule

end LedgerValue

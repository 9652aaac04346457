import LedgerValue.Proofs.Conversion.Leads
import LedgerValue.Proofs.Conversion.Step
import LedgerValue.Value.Refinement

/-!
# Theory of refinement

Filling collections is filling one by one (`itemsFill_iff`, `entriesFill_iff`), and what fills a
value has a type that conforms to the type of the value (`conforms_of_fills`). What is known of a
value stays as it is: a scalar is only filled by itself (`eq_of_fills_scalar`), and a collection by
one of the same kind and with the same positions or names (`fills_sequence?`, `fills_named?`).
-/

namespace LedgerValue

namespace Ty

@[simp]
theorem isDynamic_iff {t : Ty} : t.isDynamic = true ↔ t = .dynamic := by
  cases t <;> simp [isDynamic]

theorem not_dynamic_of_conforms {s t : Ty} (hconforms : s.Conforms t) (ht : t ≠ .dynamic) :
    s ≠ .dynamic := by
  rintro rfl
  cases t <;> simp only [Conforms] at hconforms
  exact ht rfl

theorem eq_of_conforms_scalar {s t : Ty} (hconforms : s.Conforms t) (ht : t.IsScalar) : s = t := by
  refine eq_of_conforms hconforms ?_
  cases t <;> first | rfl | exact ht.elim

theorem isScalar_of_conforms {s t : Ty} (hconforms : s.Conforms t) (ht : t ≠ .dynamic)
    (hs : s.IsScalar) : t.IsScalar := by
  cases s <;> first | exact hs.elim | cases t <;> simp only [Conforms] at hconforms <;> trivial

end Ty

namespace Value

@[simp]
theorem itemsFill_iff {items others : List Value} :
    ItemsFill items others ↔ List.Forall₂ Fills items others := by
  induction items generalizing others with
  | nil => cases others <;> simp [ItemsFill]
  | cons item rest ih => cases others <;> simp [ItemsFill, ih]

@[simp]
theorem entriesFill_iff {entries others : List (String × Value)} :
    EntriesFill entries others ↔
      List.Forall₂ (fun entry other => entry.1 = other.1 ∧ Fills entry.2 other.2)
        entries others := by
  induction entries generalizing others with
  | nil => cases others <;> simp [EntriesFill]
  | cons entry rest ih => cases others <;> simp [EntriesFill, ih, and_assoc]

theorem conforms_of_fills {value approximation : Value} (hvalue : value.WellFormed)
    (happroximation : approximation.WellFormed) (hfills : Fills value approximation) :
    value.ty.Conforms approximation.ty := by
  induction approximation generalizing value with
  | unknown ty =>
    simp only [Fills] at hfills
    exact hfills.2
  | list element items ih =>
    cases value <;> simp only [Fills, itemsFill_iff] at hfills
    -- The first items tell the element types; without items they are the same.
    cases items with
    | nil =>
      rw [ty, ty, hfills.2 rfl]
      exact Ty.conforms_refl _
    | cons item rest =>
      obtain ⟨other, others, hhead, -, rfl⟩ := List.forall₂_cons_right_iff.mp hfills.1
      have hconforms := ih item List.mem_cons_self hvalue.2.2.1 happroximation.2.2.1 hhead
      rwa [hvalue.2.1 other List.mem_cons_self, happroximation.2.1 item List.mem_cons_self]
        at hconforms
  | map element entries ih =>
    cases value <;> simp only [Fills, entriesFill_iff] at hfills
    cases entries with
    | nil =>
      rw [ty, ty, hfills.2 rfl]
      exact Ty.conforms_refl _
    | cons entry rest =>
      obtain ⟨other, others, hhead, -, rfl⟩ := List.forall₂_cons_right_iff.mp hfills.1
      have hconforms := ih entry List.mem_cons_self hvalue.2.2.2.1 happroximation.2.2.2.1 hhead.2
      rwa [hvalue.2.1 other List.mem_cons_self, happroximation.2.1 entry List.mem_cons_self]
        at hconforms
  | tuple items ih =>
    cases value <;> simp only [Fills, itemsFill_iff] at hfills
    rw [wellFormed_tuple_iff] at hvalue happroximation
    simp only [ty, tys_eq_map, Ty.Conforms, Ty.elementsConform_iff, List.forall₂_map_left_iff,
      List.forall₂_map_right_iff]
    exact forall₂_imp_of_mem₂ (fun other hother item hitem hfill =>
      ih item hitem (hvalue other hother) (happroximation item hitem) hfill) hfills
  | object attributes ih =>
    cases value <;> simp only [Fills, entriesFill_iff] at hfills
    rw [wellFormed_object_iff] at hvalue happroximation
    simp only [ty, attributeTys_eq_mapValues, Record.mapValues, Ty.Conforms,
      Ty.attributesConform_iff, List.forall₂_map_left_iff, List.forall₂_map_right_iff]
    exact forall₂_imp_of_mem₂ (fun other hother entry hentry hfill => ⟨hfill.1,
      ih entry hentry (hvalue.2 other hother) (happroximation.2 entry hentry) hfill.2⟩) hfills
  | foreign capsule payload =>
    cases value <;> simp only [Fills] at hfills
    rw [ty, ty, hfills.1]
    exact Ty.conforms_refl _
  | null ty =>
    cases value <;> simp only [Fills] at hfills
    rw [hfills]
    exact Ty.conforms_refl _
  | _ =>
    cases value <;> simp only [Fills] at hfills
    exact Ty.conforms_refl _

theorem refines_unknown_iff {value : Value} {ty : Ty} :
    Refines value (unknown ty) ↔ value.WellFormed ∧ value.ty.Conforms ty := by
  simp only [Refines, Fills, ← and_assoc, and_self]

theorem refines_dynamic {value : Value} (hvalue : value.WellFormed) : Refines value dynamic :=
  refines_unknown_iff.mpr ⟨hvalue, by simp only [Ty.Conforms]⟩

theorem eq_null_of_fills {value : Value} {ty : Ty} (hfills : Fills value (null ty)) :
    value = null ty := by
  cases value <;> simp only [Fills] at hfills
  rw [hfills]

theorem isNull_of_fills {value approximation : Value} (hfills : Fills value approximation)
    (hvalue : value.isNull = false) : approximation.isNull = false := by
  cases approximation
  case null =>
    obtain rfl := eq_null_of_fills hfills
    cases hvalue
  all_goals rfl

/-- A known scalar leaves nothing to fill. -/
theorem eq_of_fills_scalar {value approximation : Value}
    (hpayload : approximation.hasPayload = true) (hscalar : approximation.ty.IsScalar)
    (hfills : Fills value approximation) :
    value = approximation := by
  cases approximation <;> simp only [hasPayload, Bool.false_eq_true] at hpayload <;>
    simp only [ty, Ty.IsScalar] at hscalar <;> cases value <;> simp only [Fills] at hfills
  case foreign.foreign => rw [hfills.1, hfills.2]
  all_goals rw [hfills]

theorem fills_sequence? {value approximation : Value} {items : List Value}
    (hfills : Fills value approximation) (hitems : approximation.sequence? = some items) :
    ∃ others, value.sequence? = some others ∧ value.hasPayload = true ∧
      List.Forall₂ Fills others items := by
  cases approximation <;> simp only [sequence?, reduceCtorEq, Option.some.injEq] at hitems <;>
    cases value <;> simp only [Fills] at hfills <;> subst hitems
  case list.list => exact ⟨_, rfl, rfl, itemsFill_iff.mp hfills.1⟩
  case tuple.tuple => exact ⟨_, rfl, rfl, itemsFill_iff.mp hfills⟩

theorem fills_named? {value approximation : Value} {entries : List (String × Value)}
    (hfills : Fills value approximation) (hentries : approximation.named? = some entries) :
    ∃ others, value.named? = some others ∧ value.hasPayload = true ∧
      List.Forall₂ (fun other entry => other.1 = entry.1 ∧ Fills other.2 entry.2)
        others entries := by
  cases approximation <;> simp only [named?, reduceCtorEq, Option.some.injEq] at hentries <;>
    cases value <;> simp only [Fills] at hfills <;> subst hentries
  case map.map => exact ⟨_, rfl, rfl, entriesFill_iff.mp hfills.1⟩
  case object.object => exact ⟨_, rfl, rfl, entriesFill_iff.mp hfills⟩

end Value

end LedgerValue

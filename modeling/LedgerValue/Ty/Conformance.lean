import LedgerValue.Ty.Basic

/-!
# Conformance

A type conforms to another when it is the other with some type in place of each dynamic. Main
statements: every type conforms to itself (`conforms_refl`), and to a type without dynamic only the
type itself conforms (`eq_of_conforms`).
-/

namespace LedgerValue.Ty

mutual

/-- The first type is the second with some type in place of each dynamic. -/
def Conforms : Ty → Ty → Prop
  | _, dynamic => True
  | string, string => True
  | bool, bool => True
  | hostNumber, hostNumber => True
  | list s, list t => Conforms s t
  | map s, map t => Conforms s t
  | tuple ss, tuple ts => ElementsConform ss ts
  | object ss, object ts => AttributesConform ss ts
  | capsule s, capsule t => s = t
  | _, _ => False

/-- The element types conform position by position. -/
def ElementsConform : List Ty → List Ty → Prop
  | [], [] => True
  | s :: ss, t :: ts => Conforms s t ∧ ElementsConform ss ts
  | _, _ => False

/-- The attributes have the same names and types that conform. -/
def AttributesConform : List (String × Ty) → List (String × Ty) → Prop
  | [], [] => True
  | (m, s) :: ss, (n, t) :: ts => m = n ∧ Conforms s t ∧ AttributesConform ss ts
  | _, _ => False

end

mutual

/-- The type is dynamic at some place. -/
def mentionsDynamic : Ty → Bool
  | dynamic => true
  | list element => element.mentionsDynamic
  | map element => element.mentionsDynamic
  | tuple elements => elementsMentionDynamic elements
  | object attributes => attributesMentionDynamic attributes
  | _ => false

/-- Some element type is dynamic at some place. -/
def elementsMentionDynamic : List Ty → Bool
  | [] => false
  | element :: rest => element.mentionsDynamic || elementsMentionDynamic rest

/-- Some attribute type is dynamic at some place. -/
def attributesMentionDynamic : List (String × Ty) → Bool
  | [] => false
  | (_, ty) :: rest => ty.mentionsDynamic || attributesMentionDynamic rest

end

mutual

theorem conforms_refl : ∀ ty : Ty, Conforms ty ty
  | string | bool | hostNumber | dynamic | capsule _ => by simp [Conforms]
  | list element => by simpa only [Conforms] using conforms_refl element
  | map element => by simpa only [Conforms] using conforms_refl element
  | tuple elements => by simpa only [Conforms] using elementsConform_refl elements
  | object attributes => by simpa only [Conforms] using attributesConform_refl attributes

theorem elementsConform_refl : ∀ elements : List Ty, ElementsConform elements elements
  | [] => by simp only [ElementsConform]
  | element :: rest => by
    simpa only [ElementsConform] using ⟨conforms_refl element, elementsConform_refl rest⟩

theorem attributesConform_refl :
    ∀ attributes : List (String × Ty), AttributesConform attributes attributes
  | [] => by simp only [AttributesConform]
  | (_, ty) :: rest => by
    simpa only [AttributesConform, true_and] using ⟨conforms_refl ty, attributesConform_refl rest⟩

end

mutual

theorem eq_of_conforms : ∀ {s t : Ty}, Conforms s t → t.mentionsDynamic = false → s = t
  | s, t, hconforms, hdefinite => by
    cases t <;> simp only [mentionsDynamic, Bool.true_eq_false] at hdefinite <;>
      cases s <;> simp only [Conforms] at hconforms
    case list.list => rw [eq_of_conforms hconforms hdefinite]
    case map.map => rw [eq_of_conforms hconforms hdefinite]
    case tuple.tuple => rw [eq_of_elementsConform hconforms hdefinite]
    case object.object => rw [eq_of_attributesConform hconforms hdefinite]
    case capsule.capsule => rw [hconforms]
    all_goals rfl

theorem eq_of_elementsConform : ∀ {ss ts : List Ty},
    ElementsConform ss ts → elementsMentionDynamic ts = false → ss = ts
  | [], [], _, _ => rfl
  | _ :: _, _ :: _, hconform, hdefinite => by
    simp only [ElementsConform] at hconform
    simp only [elementsMentionDynamic, Bool.or_eq_false_iff] at hdefinite
    rw [eq_of_conforms hconform.1 hdefinite.1, eq_of_elementsConform hconform.2 hdefinite.2]
  | [], _ :: _, hconform, _ => by simp [ElementsConform] at hconform
  | _ :: _, [], hconform, _ => by simp [ElementsConform] at hconform

theorem eq_of_attributesConform : ∀ {ss ts : List (String × Ty)},
    AttributesConform ss ts → attributesMentionDynamic ts = false → ss = ts
  | [], [], _, _ => rfl
  | (_, _) :: _, (_, _) :: _, hconform, hdefinite => by
    simp only [AttributesConform] at hconform
    simp only [attributesMentionDynamic, Bool.or_eq_false_iff] at hdefinite
    rw [hconform.1, eq_of_conforms hconform.2.1 hdefinite.1,
      eq_of_attributesConform hconform.2.2 hdefinite.2]
  | [], _ :: _, hconform, _ => by simp [AttributesConform] at hconform
  | _ :: _, [], hconform, _ => by simp [AttributesConform] at hconform

end

end LedgerValue.Ty

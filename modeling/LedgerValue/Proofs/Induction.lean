import LedgerValue.Json.Basic
import LedgerValue.Value.Basic

/-!
# Induction over types, values and JSON

Types, values and JSON values hold lists of their own kind. The principles here give the hypothesis
for every member of such a list, so that one induction is enough where the recursion of the
definitions needs one function for a tree and one for each kind of list.
-/

namespace LedgerValue

/-- Induction over a type, with the hypothesis for all element and attribute types. -/
@[elab_as_elim, induction_eliminator]
theorem Ty.induction {motive : Ty → Prop} (string : motive .string) (bool : motive .bool)
    (hostNumber : motive .hostNumber) (list : ∀ element, motive element → motive (.list element))
    (map : ∀ element, motive element → motive (.map element))
    (tuple : ∀ elements, (∀ element ∈ elements, motive element) → motive (.tuple elements))
    (object : ∀ attributes, (∀ entry ∈ attributes, motive entry.2) → motive (.object attributes))
    (capsule : ∀ kind, motive (.capsule kind)) (dynamic : motive .dynamic) (ty : Ty) :
    motive ty :=
  @Ty.rec motive (fun elements => ∀ element ∈ elements, motive element)
    (fun attributes => ∀ entry ∈ attributes, motive entry.2) (fun entry => motive entry.2)
    string bool hostNumber list map tuple object capsule dynamic (List.forall_mem_nil _)
    (fun _ _ hhead hrest => List.forall_mem_cons.mpr ⟨hhead, hrest⟩) (List.forall_mem_nil _)
    (fun _ _ hhead hrest => List.forall_mem_cons.mpr ⟨hhead, hrest⟩) (fun _ _ hty => hty) ty

/-- Induction over a value, with the hypothesis for all items and for the values of all entries. -/
@[elab_as_elim, induction_eliminator]
theorem Value.induction {motive : Value → Prop} (null : ∀ ty, motive (.null ty))
    (unknown : ∀ ty, motive (.unknown ty)) (string : ∀ text, motive (.string text))
    (bool : ∀ value, motive (.bool value)) (hostNumber : ∀ value, motive (.hostNumber value))
    (number : ∀ value, motive (.number value)) (amount : ∀ value, motive (.amount value))
    (list : ∀ element items, (∀ item ∈ items, motive item) → motive (.list element items))
    (map : ∀ element entries, (∀ entry ∈ entries, motive entry.2) → motive (.map element entries))
    (tuple : ∀ items, (∀ item ∈ items, motive item) → motive (.tuple items))
    (object : ∀ attributes, (∀ entry ∈ attributes, motive entry.2) → motive (.object attributes))
    (foreign : ∀ capsule payload, motive (.foreign capsule payload)) (value : Value) :
    motive value :=
  @Value.rec motive (fun items => ∀ item ∈ items, motive item)
    (fun entries => ∀ entry ∈ entries, motive entry.2) (fun entry => motive entry.2)
    null unknown string bool hostNumber number amount list map tuple object foreign
    (List.forall_mem_nil _) (fun _ _ hhead hrest => List.forall_mem_cons.mpr ⟨hhead, hrest⟩)
    (List.forall_mem_nil _) (fun _ _ hhead hrest => List.forall_mem_cons.mpr ⟨hhead, hrest⟩)
    (fun _ _ hvalue => hvalue) value

/-- Induction over a JSON value, with the hypothesis for all items and for the values of all
members. -/
@[elab_as_elim, induction_eliminator]
theorem Json.induction {motive : Json → Prop} (null : motive .null)
    (bool : ∀ value, motive (.bool value)) (integer : ∀ value, motive (.integer value))
    (decimal : ∀ literal, motive (.decimal literal)) (string : ∀ text, motive (.string text))
    (array : ∀ items, (∀ item ∈ items, motive item) → motive (.array items))
    (object : ∀ members, (∀ entry ∈ members, motive entry.2) → motive (.object members))
    (json : Json) : motive json :=
  @Json.rec motive (fun items => ∀ item ∈ items, motive item)
    (fun members => ∀ entry ∈ members, motive entry.2) (fun entry => motive entry.2)
    null bool integer decimal string array object (List.forall_mem_nil _)
    (fun _ _ hhead hrest => List.forall_mem_cons.mpr ⟨hhead, hrest⟩)
    (List.forall_mem_nil _) (fun _ _ hhead hrest => List.forall_mem_cons.mpr ⟨hhead, hrest⟩)
    (fun _ _ hjson => hjson) json

end LedgerValue

import LedgerValue.Proofs.Induction
import LedgerValue.Proofs.Pointwise
import LedgerValue.Proofs.Record
import LedgerValue.Value.Part

/-!
# What holds of every part

A property of all parts of a value, at every depth, is the property of the value itself and of all
parts of its direct parts (`forall_at?_iff`). The direct parts of a collection are its items or the
values of its entries (`forall_part?_list`, `forall_part?_map` and so on). A property of all values
whose direct parts have it is a property of all values (`part_induction`). The type of a tuple or an
object is read off its parts (`ty_tuple`, `ty_object`).
-/

namespace LedgerValue.Value

variable {motive : Value → Prop}

theorem forall_at?_iff {value : Value} :
    (∀ path part, value.at? path = some part → motive part) ↔
      motive value ∧ ∀ step part, value.part? step = some part →
        ∀ path inner, part.at? path = some inner → motive inner := by
  constructor
  · intro hall
    refine ⟨hall [] value rfl, fun step part hpart path inner hinner => ?_⟩
    exact hall (step :: path) inner (by rw [at?, hpart, Option.bind_some, hinner])
  · rintro ⟨hself, hparts⟩ path part hpart
    cases path with
    | nil =>
      obtain rfl := Option.some.inj hpart
      exact hself
    | cons step path =>
      obtain ⟨next, hnext, hrest⟩ := Option.bind_eq_some_iff.mp hpart
      exact hparts step next hnext path part hrest

/-- What holds wherever one path leads in both the value and a type holds of the two themselves and
wherever a path leads in parts that one step leads to in both. -/
theorem forall_at?_both_iff {motive : Value → Ty → Prop} {value : Value} {ty : Ty} :
    (∀ path part found, value.at? path = some part → ty.at? path = some found →
      motive part found) ↔
      motive value ty ∧ ∀ step part found, value.part? step = some part →
        ty.part? step = some found → ∀ path inner innerFound, part.at? path = some inner →
          found.at? path = some innerFound → motive inner innerFound := by
  constructor
  · intro hall
    refine ⟨hall [] value ty rfl rfl, ?_⟩
    intro step part found hpart hfound path inner innerFound hinner hinnerFound
    refine hall (step :: path) inner innerFound ?_ ?_
    · rw [at?, hpart, Option.bind_some, hinner]
    · rw [Ty.at?, hfound, Option.bind_some, hinnerFound]
  · rintro ⟨hself, hparts⟩ path part found hpart hfound
    cases path with
    | nil =>
      obtain rfl := Option.some.inj hpart
      obtain rfl := Option.some.inj hfound
      exact hself
    | cons step path =>
      obtain ⟨next, hnext, hrest⟩ := Option.bind_eq_some_iff.mp hpart
      obtain ⟨nextFound, hnextFound, hrestFound⟩ := Option.bind_eq_some_iff.mp hfound
      exact hparts step next nextFound hnext hnextFound path part found hrest hrestFound

/-- Induction over a value, with the hypothesis for its direct parts. -/
@[elab_as_elim]
theorem part_induction
    (whole : ∀ value, (∀ step part, value.part? step = some part → motive part) → motive value)
    (value : Value) : motive value := by
  induction value with
  | list element items ih | tuple items ih =>
    refine whole _ fun step part hpart => ?_
    cases step with
    | position index => exact ih part (List.mem_of_getElem? hpart)
    | key name | member name => cases hpart
  | map element entries ih | object entries ih =>
    refine whole _ fun step part hpart => ?_
    cases step with
    | position index => cases hpart
    | key name | member name => exact ih _ (Record.mem_of_lookup hpart)
  | _ => exact whole _ fun step part hpart => by cases step <;> cases hpart

theorem forall_part?_list {element : Ty} {items : List Value} :
    (∀ step part, (list element items).part? step = some part → motive part) ↔
      ∀ item ∈ items, motive item := by
  constructor
  · intro hparts item hmem
    obtain ⟨index, hindex⟩ := List.mem_iff_getElem?.mp hmem
    exact hparts (.position index) item hindex
  · intro hitems step part hpart
    cases step with
    | position index => exact hitems part (List.mem_of_getElem? hpart)
    | key name => cases hpart
    | member name => cases hpart

theorem part?_tuple (items : List Value) (step : Step) :
    (tuple items).part? step = (list .dynamic items).part? step := by
  cases step <;> rfl

theorem forall_part?_tuple {items : List Value} :
    (∀ step part, (tuple items).part? step = some part → motive part) ↔
      ∀ item ∈ items, motive item := by
  simp only [part?_tuple, forall_part?_list]

theorem forall_part?_map {element : Ty} {entries : List (String × Value)}
    (hordered : Record.Ordered entries) :
    (∀ step part, (map element entries).part? step = some part → motive part) ↔
      ∀ entry ∈ entries, motive entry.2 := by
  constructor
  · intro hparts entry hmem
    exact hparts (.key entry.1) entry.2 ((Record.lookup_eq_some_iff hordered).mpr hmem)
  · intro hentries step part hpart
    cases step with
    | position index => cases hpart
    | key name => exact hentries _ (Record.mem_of_lookup hpart)
    | member name => exact hentries _ (Record.mem_of_lookup hpart)

theorem part?_object (attributes : List (String × Value)) (step : Step) :
    (object attributes).part? step = (map .dynamic attributes).part? step := by
  cases step <;> rfl

theorem forall_part?_object {attributes : List (String × Value)}
    (hordered : Record.Ordered attributes) :
    (∀ step part, (object attributes).part? step = some part → motive part) ↔
      ∀ entry ∈ attributes, motive entry.2 := by
  simp only [part?_object, forall_part?_map hordered]

theorem ty_tuple {elements : List Ty} {items : List Value}
    (htys : List.Forall₂ (fun element item => item.ty = element) elements items) :
    (tuple items).ty = .tuple elements := by
  rw [ty, tys_eq_map, Ty.tuple.injEq, ← List.forall₂_eq_eq_eq, List.forall₂_map_left_iff]
  exact htys.flip

theorem ty_object {declared : List (String × Ty)} {entries : List (String × Value)}
    (htys : List.Forall₂ (fun declared entry => declared.1 = entry.1 ∧ entry.2.ty = declared.2)
      declared entries) : (object entries).ty = .object declared := by
  rw [ty, attributeTys_eq_mapValues, Ty.object.injEq, ← List.forall₂_eq_eq_eq, Record.mapValues,
    List.forall₂_map_left_iff]
  exact (htys.imp fun _ _ hentry => Prod.ext hentry.1.symm hentry.2).flip

end LedgerValue.Value

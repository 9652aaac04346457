import LedgerValue.Ty.Conformance
import LedgerValue.Value.WellFormed

/-!
# Refinement

A value refines another when unknown parts of the other have become well-formed values of types
that conform to what was declared for them. All else stays, only that a list or map takes the
element type of its parts again, if it has any. Main statements: a well-formed value refines itself
(`refines_refl`), and only itself where nothing is unknown (`eq_of_refines`).
-/

namespace LedgerValue.Value

mutual

/-- Unknown parts of the second value have become values in the first, and nothing else differs. -/
def Fills : Value → Value → Prop
  | value, unknown ty => value.WellFormed ∧ value.ty.Conforms ty
  | null s, null t => s = t
  | string s, string t => s = t
  | bool a, bool b => a = b
  | hostNumber x, hostNumber y => x = y
  | number m, number n => m = n
  | amount a, amount b => a = b
  | list s vs, list t ws => ItemsFill vs ws ∧ (ws = [] → s = t)
  | map s vs, map t ws => EntriesFill vs ws ∧ (ws = [] → s = t)
  | tuple vs, tuple ws => ItemsFill vs ws
  | object vs, object ws => EntriesFill vs ws
  | foreign c bytes, foreign d others => c = d ∧ bytes = others
  | _, _ => False

/-- Each item fills the one at its position. -/
def ItemsFill : List Value → List Value → Prop
  | [], [] => True
  | v :: vs, w :: ws => Fills v w ∧ ItemsFill vs ws
  | _, _ => False

/-- The names are the same, and each value fills the one of its name. -/
def EntriesFill : List (String × Value) → List (String × Value) → Prop
  | [], [] => True
  | (j, v) :: vs, (k, w) :: ws => j = k ∧ Fills v w ∧ EntriesFill vs ws
  | _, _ => False

end

/-- The first value is a well-formed one that the second may turn out to be. -/
def Refines (value approximation : Value) : Prop :=
  value.WellFormed ∧ Fills value approximation

mutual

/-- Nothing within is unknown. -/
def isConcrete : Value → Bool
  | unknown _ => false
  | list _ items => itemsConcrete items
  | map _ entries => entriesConcrete entries
  | tuple items => itemsConcrete items
  | object attributes => entriesConcrete attributes
  | _ => true

/-- Nothing within the items is unknown. -/
def itemsConcrete : List Value → Bool
  | [] => true
  | item :: rest => item.isConcrete && itemsConcrete rest

/-- Nothing within the values of the entries is unknown. -/
def entriesConcrete : List (String × Value) → Bool
  | [] => true
  | (_, value) :: rest => value.isConcrete && entriesConcrete rest

end

mutual

theorem fills_refl : ∀ {value : Value}, value.WellFormed → Fills value value
  | unknown ty, hvalue => by
    simp only [Fills]
    exact ⟨hvalue, Ty.conforms_refl _⟩
  | null _, _ | string _, _ | bool _, _ | hostNumber _, _ | number _, _ | amount _, _
  | foreign _ _, _ => by simp only [Fills, and_self]
  | list _ _, hvalue => by
    simp only [WellFormed] at hvalue
    simp only [Fills, implies_true, and_true]
    exact itemsFill_refl hvalue.2.2
  | map _ _, hvalue => by
    simp only [WellFormed] at hvalue
    simp only [Fills, implies_true, and_true]
    exact entriesFill_refl hvalue.2.2.2
  | tuple _, hvalue => by
    simp only [WellFormed] at hvalue
    simp only [Fills]
    exact itemsFill_refl hvalue
  | object _, hvalue => by
    simp only [WellFormed] at hvalue
    simp only [Fills]
    exact entriesFill_refl hvalue.2

theorem itemsFill_refl : ∀ {items : List Value}, ItemsWellFormed items → ItemsFill items items
  | [], _ => by simp only [ItemsFill]
  | _ :: _, hitems => by
    simp only [ItemsWellFormed] at hitems
    simp only [ItemsFill]
    exact ⟨fills_refl hitems.1, itemsFill_refl hitems.2⟩

theorem entriesFill_refl :
    ∀ {entries : List (String × Value)}, EntriesWellFormed entries → EntriesFill entries entries
  | [], _ => by simp only [EntriesFill]
  | (_, _) :: _, hentries => by
    simp only [EntriesWellFormed] at hentries
    simp only [EntriesFill, true_and]
    exact ⟨fills_refl hentries.1, entriesFill_refl hentries.2⟩

end

theorem refines_refl {value : Value} (hvalue : value.WellFormed) : Refines value value :=
  ⟨hvalue, fills_refl hvalue⟩

mutual

theorem eq_of_fills : ∀ {v w : Value}, v.WellFormed → w.WellFormed → Fills v w →
    w.isConcrete = true → v = w
  | v, w, hv, hw, hfills, hconcrete => by
    cases w <;> simp only [isConcrete, Bool.false_eq_true] at hconcrete <;>
      cases v <;> simp only [Fills] at hfills <;> simp only [WellFormed] at hv hw
    case list.list s ws t vs =>
      obtain rfl := eq_of_itemsFill hv.2.2 hw.2.2 hfills.1 hconcrete
      cases vs with
      | nil => rw [hfills.2 rfl]
      | cons item rest => rw [← hv.2.1 item List.mem_cons_self, hw.2.1 item List.mem_cons_self]
    case map.map s ws t vs =>
      obtain rfl := eq_of_entriesFill hv.2.2.2 hw.2.2.2 hfills.1 hconcrete
      cases vs with
      | nil => rw [hfills.2 rfl]
      | cons entry rest => rw [← hv.2.1 entry List.mem_cons_self, hw.2.1 entry List.mem_cons_self]
    case tuple.tuple => rw [eq_of_itemsFill hv hw hfills hconcrete]
    case object.object => rw [eq_of_entriesFill hv.2 hw.2 hfills hconcrete]
    case foreign.foreign => rw [hfills.1, hfills.2]
    all_goals rw [hfills]

theorem eq_of_itemsFill : ∀ {vs ws : List Value}, ItemsWellFormed vs → ItemsWellFormed ws →
    ItemsFill vs ws → itemsConcrete ws = true → vs = ws
  | [], [], _, _, _, _ => rfl
  | _ :: _, _ :: _, hvs, hws, hfill, hconcrete => by
    simp only [ItemsWellFormed] at hvs hws
    simp only [ItemsFill] at hfill
    simp only [itemsConcrete, Bool.and_eq_true] at hconcrete
    rw [eq_of_fills hvs.1 hws.1 hfill.1 hconcrete.1,
      eq_of_itemsFill hvs.2 hws.2 hfill.2 hconcrete.2]
  | [], _ :: _, _, _, hfill, _ => by simp [ItemsFill] at hfill
  | _ :: _, [], _, _, hfill, _ => by simp [ItemsFill] at hfill

theorem eq_of_entriesFill : ∀ {vs ws : List (String × Value)}, EntriesWellFormed vs →
    EntriesWellFormed ws → EntriesFill vs ws → entriesConcrete ws = true → vs = ws
  | [], [], _, _, _, _ => rfl
  | (_, _) :: _, (_, _) :: _, hvs, hws, hfill, hconcrete => by
    simp only [EntriesWellFormed] at hvs hws
    simp only [EntriesFill] at hfill
    simp only [entriesConcrete, Bool.and_eq_true] at hconcrete
    rw [hfill.1, eq_of_fills hvs.1 hws.1 hfill.2.1 hconcrete.1,
      eq_of_entriesFill hvs.2 hws.2 hfill.2.2 hconcrete.2]
  | [], _ :: _, _, _, hfill, _ => by simp [EntriesFill] at hfill
  | _ :: _, [], _, _, hfill, _ => by simp [EntriesFill] at hfill

end

theorem eq_of_refines {value approximation : Value} (hrefines : Refines value approximation)
    (happroximation : approximation.WellFormed) (hconcrete : approximation.isConcrete = true) :
    value = approximation :=
  eq_of_fills hrefines.1 happroximation hrefines.2 hconcrete

end LedgerValue.Value

import Mathlib.Data.List.Forall2
import Mathlib.Data.Option.Basic

/-!
# Lists related one by one

Two lists of the same length whose members are related position by position. What is known of the
members passes to the relation (`forall₂_imp_of_mem₂`), and related lists have related results
where their members have (`forall₂_of_results`).
-/

namespace LedgerValue

variable {α β γ : Type} {r s : α → β → Prop} {left : List α} {right : List β}

theorem forall₂_imp_of_mem₂ (himp : ∀ a ∈ left, ∀ b ∈ right, r a b → s a b)
    (hall : List.Forall₂ r left right) : List.Forall₂ s left right := by
  induction hall with
  | nil => exact .nil
  | cons hhead _ ih =>
    refine .cons (himp _ List.mem_cons_self _ List.mem_cons_self hhead) (ih fun a ha b hb => ?_)
    exact himp a (List.mem_cons_of_mem _ ha) b (List.mem_cons_of_mem _ hb)

theorem forall₂_imp_of_mem (himp : ∀ a ∈ left, ∀ b, r a b → s a b)
    (hall : List.Forall₂ r left right) : List.Forall₂ s left right :=
  forall₂_imp_of_mem₂ (fun a ha b _ => himp a ha b) hall

/-- Lists with the same results are the same where no two of their members share a result. -/
theorem eq_of_map_eq {f : α → γ} {others : List α}
    (hinjective : ∀ a ∈ left, ∀ b ∈ others, f a = f b → a = b) (hmap : left.map f = others.map f) :
    left = others := by
  rw [← List.forall₂_eq_eq_eq, List.forall₂_map_left_iff, List.forall₂_map_right_iff] at hmap
  rw [← List.forall₂_eq_eq_eq]
  exact forall₂_imp_of_mem₂ hinjective hmap

theorem exists_of_mem_of_forall₂ {a : α} (hall : List.Forall₂ r left right) (hmem : a ∈ left) :
    ∃ b ∈ right, r a b := by
  induction hall with
  | nil => simp at hmem
  | cons hhead _ ih =>
    rcases List.mem_cons.mp hmem with rfl | hrest
    · exact ⟨_, List.mem_cons_self, hhead⟩
    · obtain ⟨b, hb, hab⟩ := ih hrest
      exact ⟨b, List.mem_cons_of_mem _ hb, hab⟩

theorem exists_forall₂ (hall : ∀ a ∈ left, ∃ b, r a b) :
    ∃ related, List.Forall₂ r left related := by
  induction left with
  | nil => exact ⟨[], .nil⟩
  | cons a left ih =>
    obtain ⟨⟨b, hab⟩, hrest⟩ := List.forall_mem_cons.mp hall
    obtain ⟨related, hrelated⟩ := ih hrest
    exact ⟨b :: related, .cons hab hrelated⟩

theorem forall₂_comp {t : α → γ → Prop} {u : β → γ → Prop} {last : List γ}
    (hleft : List.Forall₂ (fun a b => ∀ c, u b c → t a c) left right)
    (hright : List.Forall₂ u right last) : List.Forall₂ t left last := by
  induction hleft generalizing last with
  | nil => cases hright; exact .nil
  | cons hhead _ ih =>
    cases hright with
    | cons hnext hrest => exact .cons (hhead _ hnext) (ih hrest)

/-- Related lists have related results, if related members have. -/
theorem forall₂_of_results {δ : Type} {f : α → γ → Prop} {g : β → δ → Prop} {t : γ → δ → Prop}
    {results : List γ} {others : List δ} (hall : List.Forall₂ r left right)
    (himp : ∀ a ∈ left, ∀ b ∈ right, r a b → ∀ c d, f a c → g b d → t c d)
    (hresults : List.Forall₂ f left results) (hothers : List.Forall₂ g right others) :
    List.Forall₂ t results others := by
  induction hall generalizing results others with
  | nil =>
    cases hresults
    cases hothers
    exact .nil
  | cons hhead _ ih =>
    cases hresults with
    | cons hresult hresults =>
      cases hothers with
      | cons hother hothers =>
        refine .cons (himp _ List.mem_cons_self _ List.mem_cons_self hhead _ _ hresult hother) ?_
        exact ih (fun a ha b hb => himp a (List.mem_cons_of_mem _ ha) b (List.mem_cons_of_mem _ hb))
          hresults hothers

theorem forall₂_zip {keys : List γ} (hall : List.Forall₂ r left right) :
    List.Forall₂ (fun a b => a.1 = b.1 ∧ r a.2 b.2) (keys.zip left) (keys.zip right) := by
  induction hall generalizing keys with
  | nil => simp
  | cons hhead _ ih =>
    cases keys with
    | nil => exact .nil
    | cons key keys => exact .cons ⟨rfl, hhead⟩ ih

theorem forall₂_zip_map {f : α → γ} {t : γ × β → α → Prop}
    (hall : List.Forall₂ (fun a b => t (f a, b) a) left right) :
    List.Forall₂ t ((left.map f).zip right) left := by
  induction hall with
  | nil => exact .nil
  | cons hhead _ ih => exact .cons hhead ih

theorem forall₂_of_zip {t : α × β → γ → Prop} {last : List γ} (hlength : right.length = left.length)
    (hall : List.Forall₂ t (left.zip right) last) :
    List.Forall₂ (fun a c => ∃ b ∈ right, t (a, b) c) left last := by
  induction left generalizing right last with
  | nil =>
    cases hall
    exact .nil
  | cons a left ih =>
    cases right with
    | nil => cases hlength
    | cons b right =>
      rw [List.zip_cons_cons] at hall
      cases hall with
      | cons hhead hrest =>
        refine .cons ⟨b, List.mem_cons_self, hhead⟩ ?_
        refine (ih (Nat.succ.inj hlength) hrest).imp fun a c hc => ?_
        obtain ⟨b', hmem, hc⟩ := hc
        exact ⟨b', List.mem_cons_of_mem b hmem, hc⟩

theorem forall₂_zip_self {t : α × β → β → Prop}
    (hall : List.Forall₂ (fun a b => t (a, b) b) left right) :
    List.Forall₂ t (left.zip right) right := by
  induction hall with
  | nil => exact .nil
  | cons hhead _ ih => exact .cons hhead ih

theorem keys_eq_of_forall₂ {entries : List (String × α)} {others : List (String × β)}
    (hall : List.Forall₂ (fun entry other => entry.1 = other.1) entries others) :
    entries.map Prod.fst = others.map Prod.fst := by
  induction hall with
  | nil => rfl
  | cons hhead _ ih => rw [List.map_cons, List.map_cons, hhead, ih]

theorem rel_getElem? (hall : List.Forall₂ r left right) (position : Nat) :
    Option.Rel r left[position]? right[position]? := by
  induction hall generalizing position with
  | nil => exact .none
  | cons hhead _ ih =>
    cases position with
    | zero => exact .some hhead
    | succ position => exact ih position

theorem forall₂_of_rel_getElem?
    (hrel : ∀ position : Nat, Option.Rel r left[position]? right[position]?) :
    List.Forall₂ r left right := by
  induction left generalizing right with
  | nil =>
    cases right with
    | nil => exact .nil
    | cons b right => cases hrel 0
  | cons a left ih =>
    cases right with
    | nil => cases hrel 0
    | cons b right =>
      refine .cons ?_ (ih fun position => hrel (position + 1))
      cases hrel 0 with
      | some hrelated => exact hrelated

theorem rel_lookup_named (named : String → α → β → Prop) {entries : List (String × α)}
    {others : List (String × β)}
    (hall : List.Forall₂ (fun entry other => entry.1 = other.1 ∧ named entry.1 entry.2 other.2)
      entries others) (name : String) :
    Option.Rel (named name) (entries.lookup name) (others.lookup name) := by
  induction hall with
  | nil => exact .none
  | @cons entry other _ _ hhead _ ih =>
    obtain ⟨key, a⟩ := entry
    obtain ⟨_, b⟩ := other
    obtain ⟨rfl, hrelated⟩ := hhead
    simp only [List.lookup_cons]
    split
    · rename_i heq
      exact .some (eq_of_beq heq ▸ hrelated)
    · exact ih

theorem rel_lookup {entries : List (String × α)} {others : List (String × β)}
    (hall : List.Forall₂ (fun entry other => entry.1 = other.1 ∧ r entry.2 other.2)
      entries others) (name : String) :
    Option.Rel r (entries.lookup name) (others.lookup name) :=
  rel_lookup_named (fun _ => r) hall name

end LedgerValue

import LedgerValue.Proofs.Outcome

/-!
# The same outcome

Two computations have the same outcome up to a relation if they fail with the same error or succeed
with related results. The notion passes from the steps of a computation to the whole
(`sameOutcome_bind`), and from the treatment of the members of two collections to that of the
collections (`sameOutcome_eachItem`, `sameOutcome_eachEntry`).
-/

namespace LedgerValue

/-- The outcomes are the same error, or results that are related. -/
inductive SameOutcome {ε α β : Type} (r : α → β → Prop) : Except ε α → Except ε β → Prop
  /-- Both succeed. -/
  | ok {a : α} {b : β} (hrelated : r a b) : SameOutcome r (.ok a) (.ok b)
  /-- Both fail alike. -/
  | error (e : ε) : SameOutcome r (.error e) (.error e)

variable {ε δ α β γ ζ : Type} {r : α → β → Prop} {s : γ → ζ → Prop} {x : Except ε α}
  {y : Except ε β}

theorem sameOutcome_refl {t : α → α → Prop} (ht : ∀ a, t a a) (x : Except ε α) :
    SameOutcome t x x := by
  cases x with
  | ok a => exact .ok (ht a)
  | error e => exact .error e

theorem sameOutcome_bind {f : α → Except ε γ} {g : β → Except ε ζ} (hsame : SameOutcome r x y)
    (hnext : ∀ a b, r a b → SameOutcome s (f a) (g b)) : SameOutcome s (x.bind f) (y.bind g) := by
  cases hsame with
  | ok hrelated => exact hnext _ _ hrelated
  | error e => exact .error e

theorem sameOutcome_map {f : α → γ} {g : β → ζ} (hsame : SameOutcome r x y)
    (hnext : ∀ a b, r a b → s (f a) (g b)) : SameOutcome s (x.map f) (y.map g) := by
  cases hsame with
  | ok hrelated => exact .ok (hnext _ _ hrelated)
  | error e => exact .error e

theorem sameOutcome_mapError (f : ε → δ) (hsame : SameOutcome r x y) :
    SameOutcome r (x.mapError f) (y.mapError f) := by
  cases hsame with
  | ok hrelated => exact .ok hrelated
  | error e => exact .error (f e)

/-- Lists made of their heads and tails in the same way. -/
theorem sameOutcome_cons {rest : Except ε (List α)} {others : Except ε (List β)}
    (hhead : SameOutcome r x y) (hrest : SameOutcome (List.Forall₂ r) rest others) :
    SameOutcome (List.Forall₂ r) (x.bind fun a => rest.map (a :: ·))
      (y.bind fun b => others.map (b :: ·)) :=
  sameOutcome_bind hhead fun _ _ hrelated => sameOutcome_map hrest fun _ _ => .cons hrelated

/-- Lists of named parts made of their heads and tails in the same way. -/
theorem sameOutcome_consNamed (name : String) {rest : Except ε (List (String × α))}
    {others : Except ε (List (String × β))} (hhead : SameOutcome r x y)
    (hrest : SameOutcome
      (List.Forall₂ fun entry other => entry.1 = other.1 ∧ r entry.2 other.2) rest others) :
    SameOutcome (List.Forall₂ fun entry other => entry.1 = other.1 ∧ r entry.2 other.2)
      (x.bind fun a => rest.map ((name, a) :: ·)) (y.bind fun b => others.map ((name, b) :: ·)) :=
  sameOutcome_bind hhead fun _ _ hrelated =>
    sameOutcome_map hrest fun _ _ => .cons ⟨rfl, hrelated⟩

section Traversal

variable {under : Step → ε → ε} {f : γ → Except ε α} {g : ζ → Except ε β}

theorem sameOutcome_eachItem {position : Nat} {items : List γ} {others : List ζ}
    (hitems : List.Forall₂ (fun item other => SameOutcome r (f item) (g other)) items others) :
    SameOutcome (List.Forall₂ r) (eachItem under f position items)
      (eachItem under g position others) := by
  induction hitems generalizing position with
  | nil => exact .ok .nil
  | cons hhead _ ih => exact sameOutcome_cons (sameOutcome_mapError _ hhead) ih

theorem sameOutcome_eachEntry {entries : List (String × γ)} {others : List (String × ζ)}
    (hentries : List.Forall₂
      (fun entry other => entry.1 = other.1 ∧ SameOutcome r (f entry.2) (g other.2))
      entries others) :
    SameOutcome (List.Forall₂ fun entry other => entry.1 = other.1 ∧ r entry.2 other.2)
      (eachEntry under f entries) (eachEntry under g others) := by
  induction hentries with
  | nil => exact .ok .nil
  | @cons entry other _ _ hhead _ ih =>
    obtain ⟨name, a⟩ := entry
    obtain ⟨_, b⟩ := other
    obtain ⟨rfl, hsame⟩ := hhead
    exact sameOutcome_consNamed name (sameOutcome_mapError _ hsame) ih

end Traversal

end LedgerValue

import LedgerValue.Proofs.Outcome

/-!
# Outcomes that approximate each other

One computation is run twice, on an approximation and on what refines it. The outcomes agree if
their results are related where both succeed, and the approximation covers the other if it also does
not fail unless the other does. Both notions pass from the steps of a computation to the whole
(`agree_bind`, `covers_bind`).
-/

namespace LedgerValue

variable {α β γ δ ε ζ : Type} {r : β → α → Prop} {s : δ → γ → Prop}
  {refined : Except ζ β} {approximation : Except ε α}

/-- Where both outcomes are results, the results are related. -/
def Agree (r : β → α → Prop) (refined : Except ζ β) (approximation : Except ε α) : Prop :=
  ∀ b a, refined = .ok b → approximation = .ok a → r b a

/-- The outcomes agree, and where the approximation fails so does what refines it. -/
structure Covers (r : β → α → Prop) (refined : Except ζ β) (approximation : Except ε α) : Prop where
  /-- Results are related. -/
  agree : Agree r refined approximation
  /-- A failure is there to stay. -/
  fails : ∀ e, approximation = .error e → ∃ e', refined = .error e'

theorem agree_bind {f : β → Except ζ δ} {g : α → Except ε γ}
    (hagree : Agree r refined approximation)
    (hnext : ∀ b a, r b a → Agree s (f b) (g a)) :
    Agree s (refined.bind f) (approximation.bind g) := by
  intro d c hrefined happroximation
  obtain ⟨b, hb, hd⟩ := bind_eq_ok_iff.mp hrefined
  obtain ⟨a, ha, hc⟩ := bind_eq_ok_iff.mp happroximation
  exact hnext b a (hagree b a hb ha) d c hd hc

theorem covers_bind {f : β → Except ζ δ} {g : α → Except ε γ}
    (hcovers : Covers r refined approximation)
    (hnext : ∀ b a, r b a → Covers s (f b) (g a)) :
    Covers s (refined.bind f) (approximation.bind g) := by
  refine ⟨agree_bind hcovers.agree fun b a hrelated => (hnext b a hrelated).agree,
    fun e herror => ?_⟩
  rcases bind_eq_error_iff.mp herror with herror | ⟨a, ha, herror⟩
  · obtain ⟨e', he'⟩ := hcovers.fails e herror
    exact ⟨e', bind_eq_error_iff.mpr (Or.inl he')⟩
  · cases hb : refined with
    | error e' => exact ⟨e', rfl⟩
    | ok b => exact (hnext b a (hcovers.agree b a hb ha)).fails e herror

theorem agree_mapError {ι κ : Type} {f : ζ → ι} {g : ε → κ}
    (hagree : Agree r refined approximation) :
    Agree r (refined.mapError f) (approximation.mapError g) := by
  intro b a hb ha
  exact hagree b a (mapError_eq_ok_iff.mp hb) (mapError_eq_ok_iff.mp ha)

theorem covers_mapError {ι κ : Type} {f : ζ → ι} {g : ε → κ}
    (hcovers : Covers r refined approximation) :
    Covers r (refined.mapError f) (approximation.mapError g) := by
  refine ⟨agree_mapError hcovers.agree, fun e herror => ?_⟩
  obtain ⟨cause, hcause, rfl⟩ := mapError_eq_error_iff.mp herror
  obtain ⟨cause', hcause'⟩ := hcovers.fails cause hcause
  exact ⟨f cause', by rw [hcause']; rfl⟩

theorem agree_and {p : α → Prop} (hagree : Agree r refined approximation)
    (hresult : ∀ a, approximation = .ok a → p a) :
    Agree (fun b a => r b a ∧ p a) refined approximation :=
  fun b a hb ha => ⟨hagree b a hb ha, hresult a ha⟩

theorem covers_and {p : α → Prop} (hcovers : Covers r refined approximation)
    (hresult : ∀ a, approximation = .ok a → p a) :
    Covers (fun b a => r b a ∧ p a) refined approximation :=
  ⟨agree_and hcovers.agree hresult, hcovers.fails⟩

theorem covers_map {f : β → δ} {g : α → γ} (hcovers : Covers r refined approximation)
    (hnext : ∀ b a, r b a → s (f b) (g a)) : Covers s (refined.map f) (approximation.map g) := by
  refine ⟨fun d c hd hc => ?_, fun e herror => ?_⟩
  · obtain ⟨b, hb, rfl⟩ := map_eq_ok_iff.mp hd
    obtain ⟨a, ha, rfl⟩ := map_eq_ok_iff.mp hc
    exact hnext b a (hcovers.agree b a hb ha)
  · obtain ⟨e', he'⟩ := hcovers.fails e (map_eq_error_iff.mp herror)
    exact ⟨e', map_eq_error_iff.mpr he'⟩

theorem covers_ok {b : β} {a : α} (hrelated : r b a) :
    Covers r (.ok b : Except ζ β) (.ok a : Except ε α) := by
  refine ⟨fun b' a' hb ha => ?_, fun e herror => nomatch herror⟩
  rwa [← Except.ok.inj hb, ← Except.ok.inj ha]

theorem covers_refl {t : β → β → Prop} (hrelated : ∀ b, refined = .ok b → t b b) :
    Covers t refined refined := by
  refine ⟨fun b a hb ha => ?_, fun e herror => ⟨e, herror⟩⟩
  obtain rfl := Except.ok.inj (hb.symm.trans ha)
  exact hrelated b hb

/-- What fails is covered by everything. -/
theorem covers_of_error {e : ζ} (herror : refined = .error e) : Covers r refined approximation := by
  refine ⟨fun b a hb _ => ?_, fun _ _ => ⟨e, herror⟩⟩
  rw [herror] at hb
  cases hb

/-- A result that covers everything. -/
theorem covers_of_ok {a : α} (happroximation : approximation = .ok a)
    (hrelated : ∀ b, refined = .ok b → r b a) : Covers r refined approximation := by
  refine ⟨fun b a' hb ha => ?_, fun e herror => ?_⟩
  · rw [happroximation] at ha
    rw [← Except.ok.inj ha]
    exact hrelated b hb
  · rw [happroximation] at herror
    cases herror

end LedgerValue

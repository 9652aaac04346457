import LedgerValue.Path
import LedgerValue.Proofs.Pointwise

/-!
# Outcomes

When a computation that may fail succeeds, and how it fails. Treating the items of a list one by
one succeeds exactly when it does for every item, wherever counting starts (`eachItem_eq_ok_iff`),
and the same goes for the entries of a record (`eachEntry_eq_ok_iff`).
-/

namespace LedgerValue

section Except

variable {ε δ α β : Type} {x : Except ε α}

@[simp]
theorem bind_eq_ok_iff {f : α → Except ε β} {b : β} :
    x.bind f = .ok b ↔ ∃ a, x = .ok a ∧ f a = .ok b := by
  cases x <;> simp [Except.bind]

@[simp]
theorem bind_eq_error_iff {f : α → Except ε β} {e : ε} :
    x.bind f = .error e ↔ x = .error e ∨ ∃ a, x = .ok a ∧ f a = .error e := by
  cases x <;> simp [Except.bind]

@[simp]
theorem map_eq_ok_iff {f : α → β} {b : β} : x.map f = .ok b ↔ ∃ a, x = .ok a ∧ f a = b := by
  cases x <;> simp [Except.map]

@[simp]
theorem map_eq_error_iff {f : α → β} {e : ε} : x.map f = .error e ↔ x = .error e := by
  cases x <;> simp [Except.map]

@[simp]
theorem mapError_eq_ok_iff {f : ε → δ} {a : α} : x.mapError f = .ok a ↔ x = .ok a := by
  cases x <;> simp [Except.mapError]

@[simp]
theorem mapError_eq_error_iff {f : ε → δ} {d : δ} :
    x.mapError f = .error d ↔ ∃ e, x = .error e ∧ f e = d := by
  cases x <;> simp [Except.mapError]

@[simp]
theorem toOption_eq_some_iff {a : α} : x.toOption = some a ↔ x = .ok a := by
  cases x <;> simp [Except.toOption]

/-- A list is made of its head and its tail when both are made. -/
theorem cons_eq_ok_iff {rest : Except ε (List α)} {made : List α} :
    (x.bind fun a => rest.map (a :: ·)) = .ok made ↔
      ∃ a others, x = .ok a ∧ rest = .ok others ∧ made = a :: others := by
  simp only [bind_eq_ok_iff, map_eq_ok_iff]
  constructor
  · rintro ⟨a, ha, others, hothers, rfl⟩
    exact ⟨a, others, ha, hothers, rfl⟩
  · rintro ⟨a, others, ha, hothers, rfl⟩
    exact ⟨a, ha, others, hothers, rfl⟩

/-- A list of named parts is made of its head and its tail when both are made. -/
theorem consNamed_eq_ok_iff {name : String} {rest : Except ε (List (String × α))}
    {made : List (String × α)} :
    (x.bind fun a => rest.map ((name, a) :: ·)) = .ok made ↔
      ∃ entry others, (name = entry.1 ∧ x = .ok entry.2) ∧ rest = .ok others ∧
        made = entry :: others := by
  simp only [bind_eq_ok_iff, map_eq_ok_iff]
  constructor
  · rintro ⟨a, ha, others, hothers, rfl⟩
    exact ⟨(name, a), others, ⟨rfl, ha⟩, hothers, rfl⟩
  · rintro ⟨⟨_, a⟩, others, ⟨rfl, ha⟩, hothers, rfl⟩
    exact ⟨a, ha, others, hothers, rfl⟩

end Except

section Traversal

variable {ε α β : Type} {under : Step → ε → ε} {f : α → Except ε β}

theorem eachItem_eq_ok_iff {position : Nat} {items : List α} {treated : List β} :
    eachItem under f position items = .ok treated ↔
      List.Forall₂ (fun item result => f item = .ok result) items treated := by
  induction items generalizing position treated with
  | nil => simp [eachItem, List.forall₂_nil_left_iff, eq_comm]
  | cons item rest ih =>
    simp only [eachItem, cons_eq_ok_iff, mapError_eq_ok_iff, ih, List.forall₂_cons_left_iff]

/-- A failure is the failure of the first item that fails, with the step to it in front. -/
theorem first_of_eachItem_eq_error {position : Nat} {items : List α} {e : ε}
    (herror : eachItem under f position items = .error e) :
    ∃ front item back cause, items = front ++ item :: back ∧
      (∀ other ∈ front, ∃ result, f other = .ok result) ∧ f item = .error cause ∧
      e = under (.position (position + front.length)) cause := by
  induction items generalizing position with
  | nil => cases herror
  | cons item rest ih =>
    simp only [eachItem, bind_eq_error_iff, mapError_eq_error_iff, map_eq_error_iff] at herror
    rcases herror with ⟨cause, hcause, rfl⟩ | ⟨result, hresult, hrest⟩
    · exact ⟨[], item, rest, cause, rfl, by simp, hcause, rfl⟩
    · obtain ⟨front, other, back, cause, rfl, hfront, hcause, rfl⟩ := ih hrest
      have hitem : ∃ result, f item = .ok result := ⟨result, mapError_eq_ok_iff.mp hresult⟩
      refine ⟨item :: front, other, back, cause, rfl, List.forall_mem_cons.mpr ⟨hitem, hfront⟩,
        hcause, ?_⟩
      rw [List.length_cons, Nat.add_right_comm, Nat.add_assoc]

/-- A failure is the failure of some item, with the step to it in front. -/
theorem exists_of_eachItem_eq_error {position : Nat} {items : List α} {e : ε}
    (herror : eachItem under f position items = .error e) :
    ∃ index item cause, items[index]? = some item ∧ f item = .error cause ∧
      e = under (.position (position + index)) cause := by
  obtain ⟨front, item, back, cause, rfl, -, hcause, rfl⟩ := first_of_eachItem_eq_error herror
  exact ⟨front.length, item, cause, by simp, hcause, rfl⟩

theorem eachEntry_eq_ok_iff {entries : List (String × α)} {treated : List (String × β)} :
    eachEntry under f entries = .ok treated ↔
      List.Forall₂ (fun entry result => entry.1 = result.1 ∧ f entry.2 = .ok result.2)
        entries treated := by
  induction entries generalizing treated with
  | nil => simp [eachEntry, List.forall₂_nil_left_iff, eq_comm]
  | cons entry rest ih =>
    obtain ⟨key, value⟩ := entry
    simp only [eachEntry, consNamed_eq_ok_iff, mapError_eq_ok_iff, ih, List.forall₂_cons_left_iff]

/-- A failure is the failure of the first entry that fails, with the step to it in front. -/
theorem first_of_eachEntry_eq_error {entries : List (String × α)} {e : ε}
    (herror : eachEntry under f entries = .error e) :
    ∃ front entry back cause, entries = front ++ entry :: back ∧
      (∀ other ∈ front, ∃ result, f other.2 = .ok result) ∧ f entry.2 = .error cause ∧
      e = under (.key entry.1) cause := by
  induction entries with
  | nil => cases herror
  | cons entry rest ih =>
    obtain ⟨key, value⟩ := entry
    simp only [eachEntry, bind_eq_error_iff, mapError_eq_error_iff, map_eq_error_iff] at herror
    rcases herror with ⟨cause, hcause, rfl⟩ | ⟨result, hresult, hrest⟩
    · exact ⟨[], (key, value), rest, cause, rfl, by simp, hcause, rfl⟩
    · obtain ⟨front, other, back, cause, rfl, hfront, hcause, rfl⟩ := ih hrest
      have hvalue : ∃ result, f value = .ok result := ⟨result, mapError_eq_ok_iff.mp hresult⟩
      exact ⟨(key, value) :: front, other, back, cause, rfl,
        List.forall_mem_cons.mpr ⟨hvalue, hfront⟩, hcause, rfl⟩

/-- A failure is the failure of some entry, with the step to it in front. -/
theorem exists_of_eachEntry_eq_error {entries : List (String × α)} {e : ε}
    (herror : eachEntry under f entries = .error e) :
    ∃ entry ∈ entries, ∃ cause, f entry.2 = .error cause ∧ e = under (.key entry.1) cause := by
  obtain ⟨front, entry, back, cause, rfl, -, hcause, rfl⟩ := first_of_eachEntry_eq_error herror
  exact ⟨entry, List.mem_append_cons_self, cause, hcause, rfl⟩

end Traversal

end LedgerValue

import LedgerValue.Canonical.Writer

/-!
# Writable values

What a canonical document can hold: values in which nothing is unknown and every host number is
finite. Main statement: these are exactly the values that are written (`isWritable_iff`).
-/

namespace LedgerValue

theorem HostNumber.isFinite_iff {x : HostNumber} : x.isFinite = true ↔ ∃ n, x.toNumber = .ok n := by
  cases x <;> simp [isFinite, toNumber]

namespace Canonical

mutual

/-- Nothing within is unknown, and every host number within is finite. -/
def isWritable : Value → Bool
  | .unknown _ => false
  | .hostNumber x => x.isFinite
  | .list _ items => itemsWritable items
  | .map _ entries => entriesWritable entries
  | .tuple items => itemsWritable items
  | .object attributes => entriesWritable attributes
  | _ => true

/-- Every item is writable. -/
def itemsWritable : List Value → Bool
  | [] => true
  | item :: rest => isWritable item && itemsWritable rest

/-- The value of every entry is writable. -/
def entriesWritable : List (String × Value) → Bool
  | [] => true
  | (_, value) :: rest => isWritable value && entriesWritable rest

end

theorem exists_map_eq_ok {ε α β : Type} {f : α → β} {x : Except ε α} :
    (∃ b, x.map f = .ok b) ↔ ∃ a, x = .ok a := by
  cases x <;> simp [Except.map]

theorem exists_mapError_eq_ok {ε δ α : Type} {f : ε → δ} {x : Except ε α} :
    (∃ a, x.mapError f = .ok a) ↔ ∃ a, x = .ok a := by
  cases x with
  | error cause =>
    constructor
    · rintro ⟨_, herror⟩
      exact nomatch herror
    · rintro ⟨_, herror⟩
      exact nomatch herror
  | ok a => exact ⟨fun _ => ⟨a, rfl⟩, fun _ => ⟨a, rfl⟩⟩

mutual

theorem isWritable_iff :
    ∀ {value : Value}, isWritable value = true ↔ ∃ json, ofValue value = .ok json
  | .unknown _ => by simp [isWritable, ofValue]
  | .null _ | .string _ | .bool _ | .number _ | .amount _ | .foreign _ _ => by
    simp [isWritable, ofValue]
  | .hostNumber x => by
    rw [isWritable, ofValue, exists_map_eq_ok, exists_mapError_eq_ok, HostNumber.isFinite_iff]
  | .list _ items => by rw [isWritable, ofValue, exists_map_eq_ok, itemsWritable_iff]
  | .map _ entries => by rw [isWritable, ofValue, exists_map_eq_ok, entriesWritable_iff]
  | .tuple items => by rw [isWritable, ofValue, exists_map_eq_ok, itemsWritable_iff]
  | .object attributes => by rw [isWritable, ofValue, exists_map_eq_ok, entriesWritable_iff]

theorem itemsWritable_iff :
    ∀ {items : List Value}, itemsWritable items = true ↔ ∃ jsons, ofItems items = .ok jsons
  | [] => by simp [itemsWritable, ofItems]
  | item :: rest => by
    rw [itemsWritable, Bool.and_eq_true, isWritable_iff, itemsWritable_iff, ofItems]
    cases ofValue item <;> cases ofItems rest <;> simp [Except.bind, Except.map]

theorem entriesWritable_iff : ∀ {entries : List (String × Value)},
    entriesWritable entries = true ↔ ∃ jsons, ofEntries entries = .ok jsons
  | [] => by simp [entriesWritable, ofEntries]
  | (_, value) :: rest => by
    rw [entriesWritable, Bool.and_eq_true, isWritable_iff, entriesWritable_iff, ofEntries]
    cases ofValue value <;> cases ofEntries rest <;> simp [Except.bind, Except.map]

end

end Canonical

end LedgerValue

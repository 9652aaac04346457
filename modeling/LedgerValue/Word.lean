/-!
# Words of 64 bits

Which integers a word of 64 bits holds, with a sign and without. Numbers that leave the range are
refused by their readers and never wrap around. Main statements: a word is kept exactly when it is
in range (`signed?_eq_some_iff`, `unsigned?_eq_some_iff`).
-/

namespace LedgerValue.Word

/-- The integer is a word with a sign. -/
abbrev IsSigned (n : Int) : Prop := -0x8000000000000000 ≤ n ∧ n < 0x8000000000000000

/-- The natural number is a word without a sign. -/
abbrev IsUnsigned (n : Nat) : Prop := n < 0x10000000000000000

/-- Keeps an integer that is a word with a sign. -/
def signed? (n : Int) : Option Int := if IsSigned n then some n else none

/-- Keeps an integer that is a word without a sign. -/
def unsigned? (n : Int) : Option Nat :=
  if 0 ≤ n ∧ IsUnsigned n.toNat then some n.toNat else none

@[simp]
theorem signed?_eq_some_iff {n m : Int} : signed? n = some m ↔ IsSigned m ∧ n = m := by
  unfold signed?
  split
  · rename_i hin
    rw [Option.some.injEq]
    constructor
    · rintro rfl
      exact ⟨hin, rfl⟩
    · rintro ⟨-, rfl⟩
      rfl
  · rename_i hout
    constructor
    · simp
    · rintro ⟨hin, rfl⟩
      exact absurd hin hout

@[simp]
theorem unsigned?_eq_some_iff {n : Int} {m : Nat} :
    unsigned? n = some m ↔ IsUnsigned m ∧ n = m := by
  unfold unsigned?
  split
  · rename_i hin
    rw [Option.some.injEq]
    constructor
    · rintro rfl
      exact ⟨hin.2, by omega⟩
    · rintro ⟨-, rfl⟩
      rfl
  · rename_i hout
    constructor
    · simp
    · rintro ⟨hin, rfl⟩
      exact absurd ⟨by omega, hin⟩ hout

end LedgerValue.Word

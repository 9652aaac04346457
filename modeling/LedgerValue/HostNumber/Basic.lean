import LedgerValue.Number.Basic

/-!
# Host numbers

The host's own numbers are the binary numbers of 64 bits. A finite magnitude is named by its rank,
its place in the increasing order of all finite magnitudes, which is also its bit pattern without
the sign. Its size is counted in units, the least positive magnitude being one unit, and
`2 ^ 1074` units make one. Main statement: units increase with the rank (`units_lt_units_succ`,
`units_lt_units`).
-/

namespace LedgerValue

/-- The number of finite magnitudes: the first rank past them is the bit pattern of infinity. -/
abbrev HostNumber.rankCount : Nat := 0x7FF0000000000000

/-- A binary number of 64 bits, all ways of being no number taken as one. -/
inductive HostNumber where
  /-- Not a number. -/
  | nan
  /-- The infinity of a sign. -/
  | infinity (negative : Bool)
  /-- The finite number with a sign and the rank of its magnitude. -/
  | finite (negative : Bool) (rank : Fin HostNumber.rankCount)
deriving DecidableEq, Repr

namespace HostNumber

/-- The number of units that make one. -/
def unitsPerOne : Nat := Nat.pow 2 1074

/-- The magnitude of a rank, in units: ranks below `2 ^ 53` are spaced by one unit, and the spacing
doubles with each further `2 ^ 52` ranks. -/
def units (rank : Nat) : Nat :=
  if rank < 0x20000000000000 then rank
  else
    (rank % 0x10000000000000 + 0x10000000000000) * Nat.pow 2 (rank / 0x10000000000000 - 1)

/-- The number is neither infinite nor missing. -/
def isFinite : HostNumber → Bool
  | finite .. => true
  | _ => false

/-- Comparison by value: no number equals nothing, and the two zeros are equal. -/
def sameValue : HostNumber → HostNumber → Bool
  | infinity s, infinity t => s == t
  | finite s m, finite t n => m == n && (s == t || m.val == 0)
  | _, _ => false

/-- The exact value of a finite number. -/
def toNumber : HostNumber → Except NumberError Number
  | nan => .error .notANumber
  | infinity _ => .error .infinity
  | finite negative rank =>
    .ok (mkRat (if negative then -(units rank : Int) else units rank) unitsPerOne)

/-- The number with a bit pattern: sign, eleven bits of exponent, fifty-two of fraction. -/
def ofBits (bits : UInt64) : HostNumber :=
  let negative := 0x8000000000000000 ≤ bits.toNat
  let rank := bits.toNat % 0x8000000000000000
  if h : rank < rankCount then finite negative ⟨rank, h⟩
  else if rank = rankCount then infinity negative
  else nan

/-- The bit pattern of a number; of the patterns that are no number, the plain quiet one. -/
def toBits : HostNumber → UInt64
  | nan => 0x7FF8000000000000
  | infinity negative => if negative then 0xFFF0000000000000 else 0x7FF0000000000000
  | finite negative rank =>
    UInt64.ofNat (if negative then 0x8000000000000000 + rank else rank)

theorem units_lt_units_succ (rank : Nat) : units rank < units (rank + 1) := by
  by_cases hsmall : rank + 1 < 0x20000000000000
  · rw [units, units, if_pos (by omega), if_pos hsmall]
    omega
  · by_cases hlast : rank < 0x20000000000000
    · obtain rfl : rank = 0x1FFFFFFFFFFFFF := by omega
      decide
    · rw [units, units, if_neg hlast, if_neg hsmall]
      obtain ⟨level, hlevel⟩ : ∃ level, rank / 0x10000000000000 = level + 2 :=
        ⟨rank / 0x10000000000000 - 2, by omega⟩
      have hpos (k : Nat) : 0 < Nat.pow 2 k := Nat.two_pow_pos k
      by_cases hcarry : rank % 0x10000000000000 + 1 = 0x10000000000000
      · have hmod : (rank + 1) % 0x10000000000000 = 0 := by omega
        have hdiv : (rank + 1) / 0x10000000000000 = level + 3 := by omega
        have hdouble : Nat.pow 2 (level + 2) = Nat.pow 2 (level + 1) * 2 := rfl
        have hlarge := hpos (level + 1)
        rw [hmod, hdiv, hlevel, show level + 2 - 1 = level + 1 from rfl,
          show level + 3 - 1 = level + 2 from rfl, hdouble]
        rw [show rank % 0x10000000000000 = 0xFFFFFFFFFFFFF by omega]
        omega
      · have hmod : (rank + 1) % 0x10000000000000 = rank % 0x10000000000000 + 1 := by omega
        have hdiv : (rank + 1) / 0x10000000000000 = level + 2 := by omega
        rw [hmod, hdiv, hlevel]
        exact Nat.mul_lt_mul_of_pos_right (by omega) (hpos _)

theorem units_lt_units {rank other : Nat} (hlt : rank < other) : units rank < units other := by
  induction other with
  | zero => omega
  | succ other ih =>
    rcases Nat.lt_succ_iff_lt_or_eq.mp hlt with hlt | rfl
    · exact Nat.lt_trans (ih hlt) (units_lt_units_succ other)
    · exact units_lt_units_succ rank

end HostNumber

end LedgerValue

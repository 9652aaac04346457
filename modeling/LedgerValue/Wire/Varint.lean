import LedgerValue.Word

/-!
# Variable-length integers

A word of 64 bits in groups of seven bits, the least significant first, each in a byte whose high
bit tells that another follows. The reader takes longer spellings too, up to ten bytes, of which
the tenth holds one bit. Main statement: what is written reads back and leaves what follows
(`read?_write_append`).
-/

namespace LedgerValue.Wire.Varint

/-- The bytes of a number, at most as many as given. -/
def groups : Nat → Nat → List UInt8
  | 0, _ => []
  | count + 1, n =>
    if n < 128 then [UInt8.ofNat n]
    else UInt8.ofNat (n % 128 + 128) :: groups count (n / 128)

/-- The most bytes of a word. -/
def maxBytes : Nat := 10

/-- The bytes of a word. -/
def write (n : Nat) : List UInt8 := groups maxBytes n

/-- Reads a number of at most as many bytes as given, the last of which may hold one bit. -/
def readGroups? : Nat → List UInt8 → Option (Nat × List UInt8)
  | 0, _ => none
  | _ + 1, [] => none
  | count + 1, byte :: rest =>
    if byte.toNat < 128 then
      if count = 0 && 1 < byte.toNat then none else some (byte.toNat, rest)
    else
      (readGroups? count rest).map fun (high, left) => (byte.toNat - 128 + 128 * high, left)

/-- Reads a word. -/
def read? (bytes : List UInt8) : Option (Nat × List UInt8) := readGroups? maxBytes bytes

theorem readGroups?_groups_append {count n : Nat} (hbound : n < 2 * Nat.pow 128 count)
    (rest : List UInt8) :
    readGroups? (count + 1) (groups (count + 1) n ++ rest) = some (n, rest) := by
  induction count generalizing n with
  | zero =>
    have hn : n < 2 := by simpa using hbound
    have hsmall : (UInt8.ofNat n).toNat = n := by simp; omega
    simp only [groups, if_pos (show n < 128 by omega), List.cons_append, List.nil_append,
      readGroups?, hsmall]
    simp
    omega
  | succ count ih =>
    rw [groups]
    split
    · rename_i hn
      have hsmall : (UInt8.ofNat n).toNat = n := by simp; omega
      simp [readGroups?, hsmall, hn]
    · rename_i hn
      have hbyte : (UInt8.ofNat (n % 128 + 128)).toNat = n % 128 + 128 := by simp; omega
      have hhigh : n / 128 < 2 * Nat.pow 128 count := by
        rw [Nat.div_lt_iff_lt_mul (by decide)]
        calc
          n < 2 * Nat.pow 128 (count + 1) := hbound
          _ = 2 * Nat.pow 128 count * 128 := (Nat.mul_assoc _ _ _).symm
      rw [List.cons_append, readGroups?, hbyte, if_neg (by omega), ih hhigh]
      simp only [Option.map_some, Option.some.injEq, Prod.mk.injEq, and_true]
      omega

@[simp]
theorem read?_write_append {n : Nat} (hn : Word.IsUnsigned n) (rest : List UInt8) :
    read? (write n ++ rest) = some (n, rest) :=
  readGroups?_groups_append hn rest

end LedgerValue.Wire.Varint

/-!
# Hexadecimal bytes

Bytes written as two lower-case hexadecimal digits each. The reader takes digits of either case,
and a plus sign in place of the first digit of a pair. Main statement: what is written reads back
(`ofHex?_hex`).
-/

namespace LedgerValue.Text

/-- The lower-case hexadecimal digit of a number below sixteen. -/
def hexDigit (n : Nat) : Char :=
  if n < 10 then Char.ofNat (48 + n) else Char.ofNat (87 + n)

/-- The number a hexadecimal digit of either case stands for. -/
def hexValue? (c : Char) : Option Nat :=
  if c.isDigit then some (c.toNat - 48)
  else if 'a' ≤ c ∧ c ≤ 'f' then some (c.toNat - 87)
  else if 'A' ≤ c ∧ c ≤ 'F' then some (c.toNat - 55)
  else none

/-- The two digits of a byte. -/
def hexByte (byte : UInt8) : List Char :=
  [hexDigit (byte.toNat / 16), hexDigit (byte.toNat % 16)]

/-- Two lower-case digits for each byte. -/
def hex (bytes : List UInt8) : List Char :=
  bytes.flatMap hexByte

/-- The byte that a pair of characters spells. -/
def readHexByte? (high low : Char) : Option UInt8 :=
  (hexValue? low).bind fun units =>
    if high = '+' then some (UInt8.ofNat units)
    else (hexValue? high).map fun sixteens => UInt8.ofNat (16 * sixteens + units)

/-- The bytes that a text of pairs spells. -/
def ofHex? : List Char → Option (List UInt8)
  | [] => some []
  | [_] => none
  | high :: low :: rest =>
    (readHexByte? high low).bind fun byte => (ofHex? rest).map (byte :: ·)

@[simp]
theorem hexValue?_hexDigit {n : Nat} (hn : n < 16) : hexValue? (hexDigit n) = some n := by
  revert n
  decide

theorem hexDigit_ne_plus {n : Nat} (hn : n < 16) : hexDigit n ≠ '+' := by
  revert n
  decide

@[simp]
theorem ofHex?_hex (bytes : List UInt8) : ofHex? (hex bytes) = some bytes := by
  induction bytes with
  | nil => rfl
  | cons byte rest ih =>
    have hhigh : byte.toNat / 16 < 16 := by have := byte.toNat_lt; omega
    have hlow : byte.toNat % 16 < 16 := Nat.mod_lt _ (by decide)
    change ofHex? (hexDigit _ :: hexDigit _ :: hex rest) = _
    simp only [ofHex?, readHexByte?, hexValue?_hexDigit hhigh, hexValue?_hexDigit hlow,
      hexDigit_ne_plus hhigh, ih, Option.bind_some, Option.map_some, if_false,
      Nat.div_add_mod, UInt8.ofNat_toNat]

end LedgerValue.Text

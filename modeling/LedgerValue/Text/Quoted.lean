import LedgerValue.Text.Printable

/-!
# Quoted text

The spelling of a text between double quotes in which every character can be seen: the quote, the
backslash and four controls have short escapes, and every other unprintable character is written
by its code point in lower-case hexadecimal digits without padding.
-/

namespace LedgerValue.Text

/-- The escape by code point. -/
def codePointEscape (c : Char) : List Char :=
  ['\\', 'u', '\x7b'] ++ Nat.toDigits 16 c.toNat ++ ['\x7d']

/-- The spelling of one character between quotes. -/
def quotedChar (c : Char) : List Char :=
  if c = '"' then ['\\', '"']
  else if c = '\\' then ['\\', '\\']
  else if c = '\n' then ['\\', 'n']
  else if c = '\r' then ['\\', 'r']
  else if c = '\t' then ['\\', 't']
  else if c = '\x00' then ['\\', '0']
  else if isPrintable c then [c]
  else codePointEscape c

/-- Printable ASCII but the quote and the backslash stands for itself. -/
theorem quotedChar_of_ascii {c : Char} (hlow : 0x20 ≤ c.toNat) (hhigh : c.toNat < 0x7F)
    (hquote : c ≠ '"') (hbackslash : c ≠ '\\') : quotedChar c = [c] := by
  have hcontrol {d : Char} (hd : d.toNat < 0x20) : c ≠ d := by
    rintro rfl
    omega
  rw [quotedChar, if_neg hquote, if_neg hbackslash, if_neg (hcontrol (by decide)),
    if_neg (hcontrol (by decide)), if_neg (hcontrol (by decide)), if_neg (hcontrol (by decide)),
    if_pos (isPrintable_of_ascii hlow hhigh)]

/-- The quoted spelling of a text. -/
def quotedChars (text : List Char) : List Char :=
  '"' :: text.flatMap quotedChar ++ ['"']

/-- The quoted spelling of a string. -/
def quoted (text : String) : String :=
  String.ofList (quotedChars text.toList)

end LedgerValue.Text

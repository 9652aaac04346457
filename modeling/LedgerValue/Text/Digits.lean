/-!
# Decimal digits

Naturals and integers as texts of decimal digits. Main statements: what is written is digits only
(`isDigit_of_mem_digits`) and reads back (`readDigits_digits`).
-/

namespace LedgerValue.Text

/-- The decimal digits of a natural, without superfluous zeros in front. -/
def digits (n : Nat) : List Char := Nat.toDigits 10 n

/-- The natural that a text of decimal digits denotes, most significant digit first. -/
def readDigits (text : List Char) : Nat := Nat.ofDigitChars 10 text 0

/-- Every character is a decimal digit. -/
def allDigits (text : List Char) : Bool := text.all Char.isDigit

/-- The decimal digits of an integer after its sign, which is written for negatives only. -/
def signedDigits (n : Int) : List Char :=
  if n < 0 then '-' :: digits n.natAbs else digits n.natAbs

/-- Fills a text with zeros in front up to a width. -/
def zeroPadded (width : Nat) (text : List Char) : List Char :=
  List.replicate (width - text.length) '0' ++ text

@[simp]
theorem readDigits_digits (n : Nat) : readDigits (digits n) = n :=
  Nat.ofDigitChars_toDigits (by decide) (by decide)

theorem isDigit_of_mem_digits {n : Nat} {c : Char} (hmem : c ∈ digits n) : c.isDigit = true :=
  Nat.isDigit_of_mem_toDigits (by decide) (by decide) hmem

theorem ne_of_isDigit {c d : Char} (hc : c.isDigit = true) (hd : d.isDigit = false) : c ≠ d := by
  rintro rfl
  rw [hc] at hd
  cases hd

@[simp]
theorem digits_ne_nil (n : Nat) : digits n ≠ [] := Nat.toDigits_ne_nil

@[simp]
theorem length_zeroPadded (width : Nat) (text : List Char) :
    (zeroPadded width text).length = max width text.length := by
  simp only [zeroPadded, List.length_append, List.length_replicate]
  omega

end LedgerValue.Text

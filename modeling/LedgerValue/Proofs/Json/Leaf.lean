import LedgerValue.Json.Printer
import LedgerValue.Json.Reader
import LedgerValue.Proofs.Text.Digits

/-!
# Leaves of JSON text

The characters of a string are read back whatever they are (`readString?_stringChars`), and so are
the digits of an integer, provided that the text ends there or goes on as it may after a value
(`readNumeral?_signedDigits`). An integer that fits a word is the value of its digits
(`toJson?_ofInteger`).
-/

namespace LedgerValue.Json

/-- The integer is a word, with a sign or without. -/
def IsWord (n : Int) : Prop := -0x8000000000000000 ≤ n ∧ n < 0x10000000000000000

/-- The numeral that is written for an integer. -/
def Numeral.ofInteger (n : Int) : Numeral where
  negative := n < 0
  whole := Text.digits n.natAbs
  fraction := []
  exponent := none
  spelling := Text.signedDigits n

theorem Numeral.integer?_ofInteger {n : Int} (hn : IsWord n) :
    (ofInteger n).integer? = some n := by
  simp only [integer?, ofInteger, List.isEmpty_nil, Option.isNone_none, Bool.and_self, if_true,
    Text.readDigits_digits]
  obtain ⟨hlow, hhigh⟩ := hn
  by_cases hneg : n < 0
  · rw [decide_eq_true hneg, if_pos rfl, if_neg (by omega)]
    exact Word.signed?_eq_some_iff.mpr ⟨⟨by omega, by omega⟩, by omega⟩
  · have hword : Word.IsUnsigned n.natAbs := by
      change _ < 0x10000000000000000
      omega
    rw [decide_eq_false hneg, if_neg (by decide), if_pos hword]
    congr 1
    omega

theorem Numeral.toJson?_ofInteger {n : Int} (hn : IsWord n) :
    (ofInteger n).toJson? = some (.integer n) := by
  rw [toJson?, integer?_ofInteger hn]

namespace Document

/-- The text ends, or goes on as it may after a value. -/
def Closes (text : List Char) : Prop := ∀ c ∈ text.head?, c = ',' ∨ c = ']' ∨ c = '\x7d'

theorem head?_ne_of_closes {text : List Char} {c : Char} (htext : Closes text)
    (hc : c ≠ ',' ∧ c ≠ ']' ∧ c ≠ '\x7d') : text.head? ≠ some c := by
  intro hhead
  rcases htext c hhead with rfl | rfl | rfl
  · exact hc.1 rfl
  · exact hc.2.1 rfl
  · exact hc.2.2 rfl

theorem takeWhile_isDigit_of_closes {text : List Char} (htext : Closes text) :
    text.takeWhile Char.isDigit = [] ∧ text.dropWhile Char.isDigit = text := by
  cases text with
  | nil => exact ⟨rfl, rfl⟩
  | cons c rest =>
    have hdigit : ¬c.isDigit = true := by
      rcases htext c rfl with rfl | rfl | rfl <;> decide
    exact ⟨List.takeWhile_cons_of_neg hdigit, List.dropWhile_cons_of_neg hdigit⟩

theorem readWhole?_digits {n : Nat} {rest : List Char} (hrest : Closes rest) :
    readWhole? (Text.digits n ++ rest) = some (Text.digits n, rest) := by
  have hall : ∀ c ∈ Text.digits n, c.isDigit = true := fun c hmem =>
    Text.isDigit_of_mem_digits hmem
  rcases Nat.eq_zero_or_pos n with rfl | hpos
  · rfl
  · unfold readWhole?
    split
    · rename_i heq
      refine absurd ?_ (Text.head?_digits_ne_zero hpos)
      rw [← Text.head?_digits_append n rest, heq]
      rfl
    · obtain ⟨htake, hdrop⟩ := takeWhile_isDigit_of_closes hrest
      rw [readDigits?, List.takeWhile_append_of_pos hall, List.dropWhile_append_of_pos hall, htake,
        hdrop, List.append_nil]
      exact if_neg (by simp)

theorem readFraction?_of_closes {text : List Char} (htext : Closes text) :
    readFraction? text = some ([], text) := by
  unfold readFraction?
  split
  · exact absurd rfl (head?_ne_of_closes htext (c := '.') (by decide))
  · rfl

theorem readExponent?_of_closes {text : List Char} (htext : Closes text) :
    readExponent? text = some (none, text) := by
  unfold readExponent?
  split
  · exact absurd rfl (head?_ne_of_closes htext (c := 'e') (by decide))
  · exact absurd rfl (head?_ne_of_closes htext (c := 'E') (by decide))
  · rfl

theorem readNumeral?_signedDigits (n : Int) {rest : List Char} (hrest : Closes rest) :
    readNumeral? (Text.signedDigits n ++ rest) = some (.ofInteger n, rest) := by
  simp only [readNumeral?, Text.takeMinus_signedDigits_append, readWhole?_digits hrest,
    readFraction?_of_closes hrest, readExponent?_of_closes hrest, Option.bind_some,
    Option.map_some, List.length_append, Nat.add_sub_cancel, List.take_left', Numeral.ofInteger]

theorem fourDigits?_control {n : Nat} (hn : n < 0x20) :
    fourDigits? '0' '0' (Text.hexDigit (n / 16)) (Text.hexDigit (n % 16)) = some n := by
  have hzero : Text.hexValue? '0' = some 0 := rfl
  simp only [fourDigits?, hzero, Text.hexValue?_hexDigit (show n / 16 < 16 by omega),
    Text.hexValue?_hexDigit (show n % 16 < 16 by omega), Option.bind_some, Option.map_some,
    Option.some.injEq]
  omega

theorem readUnits?_stringChar (c : Char) (rest : List Char) :
    readUnits? (stringChar c ++ rest) =
      (readUnits? rest).map fun (units, left) => (c.toNat :: units, left) := by
  unfold stringChar
  -- The seven short escapes are those of fixed characters.
  iterate 7
    split
    · rename_i heq
      rw [heq]
      rfl
  split
  · rename_i hcontrol
    simp only [List.cons_append, List.nil_append, readUnits?, fourDigits?_control hcontrol,
      Option.bind_some]
  · rename_i hbackslash _ _ _ _ _ hcontrol
    rw [List.cons_append, List.nil_append, readUnits?.eq_def]
    simp [hbackslash, hcontrol]

theorem readUnits?_flatMap (chars rest : List Char) :
    readUnits? (chars.flatMap stringChar ++ '"' :: rest) =
      some (chars.map Char.toNat, rest) := by
  induction chars with
  | nil => rfl
  | cons c others ih =>
    rw [List.flatMap_cons, List.append_assoc, readUnits?_stringChar, ih]
    rfl

@[simp]
theorem isLeading_toNat (c : Char) : isLeading c.toNat = false := by
  have hvalid : c.toNat < 0xD800 ∨ 0xDFFF < c.toNat ∧ c.toNat < 0x110000 := c.valid
  simp only [isLeading, Bool.and_eq_false_iff, decide_eq_false_iff_not]
  omega

@[simp]
theorem isTrailing_toNat (c : Char) : isTrailing c.toNat = false := by
  have hvalid : c.toNat < 0xD800 ∨ 0xDFFF < c.toNat ∧ c.toNat < 0x110000 := c.valid
  simp only [isTrailing, Bool.and_eq_false_iff, decide_eq_false_iff_not]
  omega

@[simp]
theorem joinUnits?_map_toNat (chars : List Char) :
    joinUnits? (chars.map Char.toNat) = some chars := by
  induction chars with
  | nil => rfl
  | cons c rest ih =>
    cases rest with
    | nil => simp [joinUnits?]
    | cons d rest =>
      simp only [List.map_cons] at ih ⊢
      simp [joinUnits?, ih]

@[simp]
theorem readString?_stringChars (text : String) (rest : List Char) :
    readString? (text.toList.flatMap stringChar ++ '"' :: rest) = some (some text, rest) := by
  simp [readString?, readUnits?_flatMap]

end Document

end LedgerValue.Json

import LedgerValue.Text.Quoted
import LedgerValue.Text.Split
import Mathlib.Tactic.SplitIfs

/-!
# Reading quoted text

Between quotes a character is spelled by itself, by a short escape or by its code point
(`spellsChar_quotedChar`), and what follows a spelling cannot change how it is read
(`eq_of_spellsChar_append`). Main statement: the quoted spelling determines the text
(`eq_of_quotedChars_eq`).
-/

namespace LedgerValue.Text

/-- The characters that have a short escape, and what stands for them after the backslash. -/
def shortEscapes : List (Char × Char) :=
  [('"', '"'), ('\\', '\\'), ('\n', 'n'), ('\r', 'r'), ('\t', 't'), ('\x00', '0')]

/-- The ways to spell a character between quotes. -/
inductive SpellsChar (c : Char) : List Char → Prop
  /-- By itself. -/
  | plain (hquote : c ≠ '"') (hbackslash : c ≠ '\\') : SpellsChar c [c]
  /-- By a short escape. -/
  | short {letter : Char} (hmem : (c, letter) ∈ shortEscapes) : SpellsChar c ['\\', letter]
  /-- By its code point. -/
  | codePoint : SpellsChar c (codePointEscape c)

variable {n m : Nat} {c d : Char} {text other rest after : List Char}

section CodePoints

/-- The last digit after those of the quotient, of which there are none for a single digit. -/
theorem toDigits_eq_append (n : Nat) :
    Nat.toDigits 16 n =
      (if n < 16 then [] else Nat.toDigits 16 (n / 16)) ++ [Nat.digitChar (n % 16)] := by
  split
  · rename_i hsmall
    rw [Nat.toDigits_of_lt_base hsmall, Nat.mod_eq_of_lt hsmall, List.nil_append]
  · rename_i hlarge
    exact Nat.toDigits_of_base_le (by decide) (Nat.not_lt.mp hlarge)

theorem exists_digitChar_of_mem (hmem : c ∈ Nat.toDigits 16 n) :
    ∃ k < 16, c = Nat.digitChar k := by
  induction n using Nat.strongRecOn with
  | ind n ih =>
    rw [toDigits_eq_append, List.mem_append, List.mem_singleton] at hmem
    rcases hmem with hmem | hlast
    · split at hmem
      · cases hmem
      · exact ih (n / 16) (by omega) hmem
    · exact ⟨n % 16, Nat.mod_lt n (by decide), hlast⟩

theorem ne_of_mem_toDigits (hd : ∀ k < 16, Nat.digitChar k ≠ d) (hmem : c ∈ Nat.toDigits 16 n) :
    c ≠ d := by
  obtain ⟨k, hk, rfl⟩ := exists_digitChar_of_mem hmem
  exact hd k hk

theorem eq_of_toDigits_eq (hsame : Nat.toDigits 16 n = Nat.toDigits 16 m) : n = m := by
  induction n using Nat.strongRecOn generalizing m with
  | ind n ih =>
    have hdigits : ∀ k < 16, ∀ l < 16, Nat.digitChar k = Nat.digitChar l → k = l := by decide
    rw [toDigits_eq_append n, toDigits_eq_append m] at hsame
    obtain ⟨hfront, hlast⟩ := List.append_inj' hsame rfl
    have hremainder := hdigits _ (Nat.mod_lt n (by decide)) _ (Nat.mod_lt m (by decide))
      (List.singleton_inj.mp hlast)
    split at hfront <;> split at hfront
    · omega
    · exact absurd hfront.symm Nat.toDigits_ne_nil
    · exact absurd hfront Nat.toDigits_ne_nil
    · have hquotient := ih (n / 16) (by omega) hfront
      omega

end CodePoints

/-- Every character is spelled. -/
theorem spellsChar_quotedChar (c : Char) : SpellsChar c (quotedChar c) := by
  unfold quotedChar
  split_ifs with hquote hbackslash hnewline hreturn htab hnull hprintable
  · exact .short (by simp [shortEscapes, hquote])
  · exact .short (by simp [shortEscapes, hbackslash])
  · exact .short (by simp [shortEscapes, hnewline])
  · exact .short (by simp [shortEscapes, hreturn])
  · exact .short (by simp [shortEscapes, htab])
  · exact .short (by simp [shortEscapes, hnull])
  · exact .plain hquote hbackslash
  · exact .codePoint

theorem ne_nil_of_spellsChar (hc : SpellsChar c text) : text ≠ [] := by
  cases hc <;> simp [codePointEscape]

theorem codePointEscape_append_inj
    (hsame : codePointEscape c ++ rest = codePointEscape d ++ after) : c = d ∧ rest = after := by
  have hclosing {n : Nat} : ∀ c ∈ Nat.toDigits 16 n, (c == '\x7d') = false :=
    fun c hmem => beq_false_of_ne (ne_of_mem_toDigits (by decide) hmem)
  have hcut (c : Char) (rest : List Char) : codePointEscape c ++ rest =
      ['\\', 'u', '\x7b'] ++ (Nat.toDigits 16 c.toNat ++ '\x7d' :: rest) := by
    simp [codePointEscape]
  rw [hcut, hcut] at hsame
  have hdigits := congrArg (cut (· == '\x7d')) (List.append_cancel_left hsame)
  rw [cut_append_cons hclosing rfl, cut_append_cons hclosing rfl] at hdigits
  obtain ⟨hcode, hrest⟩ := Prod.mk.inj hdigits
  exact ⟨Char.toNat_inj.mp (eq_of_toDigits_eq hcode), Option.some.inj hrest⟩

/-- What follows does not change which character is read. -/
theorem eq_of_spellsChar_append (hc : SpellsChar c text) (hd : SpellsChar d other)
    (hsame : text ++ rest = other ++ after) : c = d ∧ rest = after := by
  have hshort : ∀ p ∈ shortEscapes, ∀ q ∈ shortEscapes, p.2 = q.2 → p.1 = q.1 := by decide
  have hcode : ∀ p ∈ shortEscapes, p.2 ≠ 'u' := by decide
  cases hc with
  | plain hquote hbackslash =>
    cases hd with
    | plain => exact List.cons.inj hsame
    | short => exact absurd (List.cons.inj hsame).1 hbackslash
    | codePoint => exact absurd (List.cons.inj hsame).1 hbackslash
  | short hmem =>
    cases hd with
    | plain hquote hbackslash => exact absurd (List.cons.inj hsame).1.symm hbackslash
    | short hother =>
      obtain ⟨hletter, hrest⟩ := List.cons.inj (List.cons.inj hsame).2
      exact ⟨hshort _ hmem _ hother hletter, hrest⟩
    | codePoint => exact absurd (List.cons.inj (List.cons.inj hsame).2).1 (hcode _ hmem)
  | codePoint =>
    cases hd with
    | plain hquote hbackslash => exact absurd (List.cons.inj hsame).1.symm hbackslash
    | short hother => exact absurd (List.cons.inj (List.cons.inj hsame).2).1.symm (hcode _ hother)
    | codePoint => exact codePointEscape_append_inj hsame

theorem eq_of_flatMap_quotedChar_eq
    (hsame : text.flatMap quotedChar = other.flatMap quotedChar) : text = other := by
  have hne (c : Char) (rest : List Char) : [] ≠ (c :: rest).flatMap quotedChar := by
    simp [ne_nil_of_spellsChar (spellsChar_quotedChar c)]
  induction text generalizing other with
  | nil =>
    cases other with
    | nil => rfl
    | cons d after => exact absurd hsame (hne d after)
  | cons c rest ih =>
    cases other with
    | nil => exact absurd hsame.symm (hne c rest)
    | cons d after =>
      obtain ⟨rfl, hrest⟩ := eq_of_spellsChar_append (spellsChar_quotedChar c)
        (spellsChar_quotedChar d) hsame
      rw [ih hrest]

theorem eq_of_quotedChars_eq (hsame : quotedChars text = quotedChars other) : text = other := by
  refine eq_of_flatMap_quotedChar_eq ?_
  exact List.append_cancel_right (List.cons.inj hsame).2

end LedgerValue.Text

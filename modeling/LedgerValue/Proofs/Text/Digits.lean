import LedgerValue.Text.Digits
import LedgerValue.Text.Split

/-!
# What decimal digits look like

How the digits of a number begin: with a digit, and with zero only if they are those of zero
(`head?_digits_ne`, `head?_digits_ne_zero`). Filled up to one more than some width, they are the
digits of the quotient and the remainder by that power of ten (`zeroPadded_digits_split`). The
digits of an integer are a minus sign or nothing, and then the digits of its size
(`signedDigits_eq`).
-/

namespace LedgerValue.Text

theorem head?_digits_ne {n : Nat} {c : Char} (hc : c.isDigit = false) :
    (digits n).head? ≠ some c := by
  intro hhead
  exact ne_of_isDigit (isDigit_of_mem_digits (List.mem_of_head? hhead)) hc rfl

theorem head?_digits_append (n : Nat) (rest : List Char) :
    (digits n ++ rest).head? = (digits n).head? := by
  obtain ⟨c, others, hdigits⟩ := List.exists_cons_of_ne_nil (digits_ne_nil n)
  rw [hdigits]
  rfl

theorem digits_of_lt {n : Nat} (hn : n < 10) : digits n = [Nat.digitChar n] :=
  Nat.toDigits_of_lt_base hn

theorem digits_of_le {n : Nat} (hn : 10 ≤ n) :
    digits n = digits (n / 10) ++ [Nat.digitChar (n % 10)] :=
  Nat.toDigits_of_base_le (by decide) hn

theorem head?_digits_ne_zero {n : Nat} (hn : 0 < n) : (digits n).head? ≠ some '0' := by
  induction n using Nat.strongRecOn with
  | ind n ih =>
    by_cases hsmall : n < 10
    · rw [digits_of_lt hsmall]
      have hdigit : ∀ m < 10, 0 < m → Nat.digitChar m ≠ '0' := by decide
      simpa using hdigit n hsmall hn
    · rw [digits_of_le (by omega), head?_digits_append]
      exact ih (n / 10) (by omega) (by omega)

theorem zeroPadded_of_le {width : Nat} {text : List Char} (hwidth : width ≤ text.length) :
    zeroPadded width text = text := by
  rw [zeroPadded, Nat.sub_eq_zero_of_le hwidth, List.replicate_zero, List.nil_append]

@[simp]
theorem readDigits_zeroPadded (width : Nat) (ds : List Char) :
    readDigits (zeroPadded width ds) = readDigits ds := by
  rw [zeroPadded, readDigits, Nat.ofDigitChars_append, Nat.ofDigitChars_replicate_zero,
    Nat.mul_zero, readDigits]

theorem readDigits_append_zeros (ds : List Char) (count : Nat) :
    readDigits (ds ++ List.replicate count '0') = Nat.pow 10 count * readDigits ds := by
  rw [readDigits, Nat.ofDigitChars_append, Nat.ofDigitChars_replicate_zero]
  rfl

@[simp]
theorem allDigits_digits (n : Nat) : allDigits (digits n) = true :=
  List.all_eq_true.mpr fun _ hmem => isDigit_of_mem_digits hmem

theorem allDigits_of_subset {ds part : List Char} (hdigits : allDigits ds = true)
    (hsubset : part ⊆ ds) : allDigits part = true :=
  List.all_eq_true.mpr fun c hmem => List.all_eq_true.mp hdigits c (hsubset hmem)

theorem allDigits_zeroPadded {ds : List Char} (width : Nat) (hdigits : allDigits ds = true) :
    allDigits (zeroPadded width ds) = true := by
  rw [zeroPadded, allDigits, List.all_append, Bool.and_eq_true]
  refine ⟨List.all_eq_true.mpr fun c hmem => ?_, hdigits⟩
  rw [List.eq_of_mem_replicate hmem]
  rfl

/-- Filled up with zeros to one more than some width, what precedes that width has no superfluous
zero in front. -/
theorem take_zeroPadded_of_head? (n width : Nat) :
    let padded := zeroPadded (width + 1) (digits n)
    (padded.take (padded.length - width)).head? = some '0' →
      padded.take (padded.length - width) = ['0'] := by
  intro padded hhead
  have hlength : padded.length = max (width + 1) (digits n).length := length_zeroPadded _ _
  by_cases hshort : (digits n).length ≤ width + 1
  · obtain ⟨c, rest, hpadded⟩ := List.exists_cons_of_ne_nil
      (List.ne_nil_of_length_pos (show 0 < padded.length by omega))
    rw [show padded.length - width = 1 by omega, hpadded] at hhead ⊢
    simpa using hhead
  · have hpadded : padded = digits n := zeroPadded_of_le (by omega)
    rw [List.head?_take, if_neg (by omega), hpadded] at hhead
    have hzero : n = 0 := Nat.eq_zero_of_not_pos fun hpos => head?_digits_ne_zero hpos hhead
    rw [hzero] at hshort
    exact absurd (show (digits 0).length ≤ width + 1 by change 1 ≤ _; omega) hshort

/-- Filled up to at least two digits, the last one follows the others, filled up to one less. -/
theorem zeroPadded_digits_succ {width : Nat} (hwidth : 0 < width) (n : Nat) :
    zeroPadded (width + 1) (digits n) =
      zeroPadded width (digits (n / 10)) ++ [Nat.digitChar (n % 10)] := by
  by_cases hsmall : n < 10
  · obtain ⟨further, rfl⟩ : ∃ further, width = further + 1 := ⟨width - 1, by omega⟩
    have hzero : digits 0 = ['0'] := rfl
    rw [Nat.div_eq_of_lt hsmall, Nat.mod_eq_of_lt hsmall, digits_of_lt hsmall, hzero, zeroPadded,
      zeroPadded, ← List.replicate_succ']
    rfl
  · rw [digits_of_le (by omega), zeroPadded, zeroPadded, List.length_append, List.length_singleton,
      Nat.add_sub_add_right, List.append_assoc]

/-- Filled up to one more than a width, the digits of a number are those of its quotient by that
power of ten, and then those of the remainder filled up to the width. -/
theorem zeroPadded_digits_split {width : Nat} (hwidth : 0 < width) (n : Nat) :
    zeroPadded (width + 1) (digits n) =
      digits (n / Nat.pow 10 width) ++ zeroPadded width (digits (n % Nat.pow 10 width)) := by
  obtain ⟨further, rfl⟩ : ∃ further, width = further + 1 := ⟨width - 1, by omega⟩
  clear hwidth
  induction further generalizing n with
  | zero =>
    have hfilled (n : Nat) : zeroPadded 1 (digits n) = digits n :=
      zeroPadded_of_le (List.length_pos_iff.mpr (digits_ne_nil n))
    change _ = digits (n / 10) ++ zeroPadded 1 (digits (n % 10))
    rw [zeroPadded_digits_succ Nat.one_pos, hfilled, hfilled,
      digits_of_lt (Nat.mod_lt n (by decide))]
  | succ further ih =>
    have hpower : Nat.pow 10 (further + 1 + 1) = 10 * Nat.pow 10 (further + 1) := Nat.mul_comm _ _
    have hlast : n % (10 * Nat.pow 10 (further + 1)) % 10 = n % 10 :=
      Nat.mod_mod_of_dvd n (Nat.dvd_mul_right _ _)
    rw [zeroPadded_digits_succ (Nat.succ_pos _), ih, List.append_assoc,
      zeroPadded_digits_succ (Nat.succ_pos _), hpower, Nat.div_div_eq_div_mul,
      Nat.mod_mul_right_div_self, hlast]

theorem length_zeroPadded_digits {width n : Nat} (hwidth : 0 < width)
    (hn : n < Nat.pow 10 width) : (zeroPadded width (digits n)).length = width := by
  have hlength : (digits n).length ≤ width :=
    (Nat.length_toDigits_le_iff (by decide) hwidth).mpr hn
  rw [length_zeroPadded]
  omega

theorem signedDigits_eq (n : Int) : signedDigits n = minus (n < 0) ++ digits n.natAbs := by
  rw [signedDigits, minus]
  by_cases hneg : n < 0
  · simp [hneg]
  · simp [hneg]

/-- Digits of an integer begin with no character but a minus sign or a digit. -/
theorem exists_signedDigits_eq_cons (n : Int) :
    ∃ c rest, signedDigits n = c :: rest ∧ ∀ d, d ≠ '-' → d.isDigit = false → c ≠ d := by
  rw [signedDigits]
  split
  · exact ⟨_, _, rfl, fun d hminus _ => Ne.symm hminus⟩
  · obtain ⟨c, rest, hdigits⟩ := List.exists_cons_of_ne_nil (digits_ne_nil n.natAbs)
    refine ⟨c, rest, hdigits, fun d _ hdigit heq => ?_⟩
    have hhead : (digits n.natAbs).head? = some d := by rw [hdigits, heq, List.head?_cons]
    exact head?_digits_ne hdigit hhead

theorem takeMinus_signedDigits_append (n : Int) (rest : List Char) :
    takeMinus (signedDigits n ++ rest) = (decide (n < 0), digits n.natAbs ++ rest) := by
  rw [signedDigits_eq, List.append_assoc]
  refine takeMinus_minus_append ?_
  rw [head?_digits_append]
  exact head?_digits_ne rfl

theorem eq_of_digits_eq {n m : Nat} (hsame : digits n = digits m) : n = m := by
  rw [← readDigits_digits n, hsame, readDigits_digits]

theorem eq_of_signedDigits_eq {n m : Int} (hsame : signedDigits n = signedDigits m) : n = m := by
  have htaken := takeMinus_signedDigits_append n []
  rw [hsame, takeMinus_signedDigits_append, List.append_nil, List.append_nil] at htaken
  obtain ⟨hsign, hdigits⟩ := Prod.mk.inj htaken
  have hsize := eq_of_digits_eq hdigits
  rw [decide_eq_decide] at hsign
  omega

theorem mem_signedDigits {n : Int} {c : Char} (hmem : c ∈ signedDigits n) :
    c = '-' ∨ c.isDigit = true := by
  rw [signedDigits] at hmem
  split at hmem
  · exact (List.mem_cons.mp hmem).imp_right isDigit_of_mem_digits
  · exact .inr (isDigit_of_mem_digits hmem)

theorem signedDigits_ne_nil (n : Int) : signedDigits n ≠ [] := by
  rw [signedDigits]
  split
  · exact List.cons_ne_nil _ _
  · exact digits_ne_nil _

theorem ne_slash_of_mem_signedDigits {n : Int} {c : Char} (hmem : c ∈ signedDigits n) :
    (c == '/') = false := by
  rcases mem_signedDigits hmem with rfl | hdigit
  · rfl
  · exact beq_false_of_ne (ne_of_isDigit hdigit rfl)

end LedgerValue.Text

/-!
# Cutting text

Texts are handled as lists of characters. `takeMinus` takes a sign off one, and `cut` divides one
at the first character of a class. Main statements: nothing but the sign or that one character is
lost (`minus_append_takeMinus`, `eq_append_of_cut_some`, `eq_of_cut_none`), and a text put together
of a part without the class, such a character and a rest is divided again
(`takeMinus_minus_append`, `cut_append_cons`, `cut_of_forall`).
-/

namespace LedgerValue.Text

/-- Takes a minus sign off the front, and tells whether there was one. -/
def takeMinus : List Char → Bool × List Char
  | '-' :: rest => (true, rest)
  | text => (false, text)

/-- The text of a minus sign, if there is one. -/
def minus (negative : Bool) : List Char := if negative then ['-'] else []

/-- What stands before the first character of the class, and what stands after it if it occurs. -/
def cut (isMark : Char → Bool) : List Char → List Char × Option (List Char)
  | [] => ([], none)
  | c :: rest =>
    if isMark c then ([], some rest)
    else (c :: (cut isMark rest).1, (cut isMark rest).2)

@[simp]
theorem minus_append_takeMinus (text : List Char) :
    minus (takeMinus text).1 ++ (takeMinus text).2 = text := by
  unfold takeMinus
  split <;> simp [minus]

theorem takeMinus_minus_append {negative : Bool} {text : List Char}
    (hhead : text.head? ≠ some '-') :
    takeMinus (minus negative ++ text) = (negative, text) := by
  cases negative with
  | true => rfl
  | false =>
    cases text with
    | nil => rfl
    | cons c rest =>
      simp only [List.head?_cons, ne_eq, Option.some.injEq] at hhead
      simp only [minus, Bool.false_eq_true, if_false, List.nil_append]
      unfold takeMinus
      split
      · rename_i heq
        exact absurd (List.cons.inj heq).1 hhead
      · rfl

theorem eq_of_cut_none {isMark : Char → Bool} {text before : List Char}
    (hcut : cut isMark text = (before, none)) : text = before := by
  induction text generalizing before with
  | nil => simp_all [cut]
  | cons c rest ih =>
    simp only [cut] at hcut
    split at hcut
    · simp at hcut
    · obtain ⟨rfl, hnone⟩ := Prod.mk.inj hcut
      rw [← @ih (cut isMark rest).1 (by rw [← hnone])]

theorem eq_append_of_cut_some {isMark : Char → Bool} {text before after : List Char}
    (hcut : cut isMark text = (before, some after)) :
    ∃ mark, isMark mark = true ∧ text = before ++ mark :: after := by
  induction text generalizing before with
  | nil => simp [cut] at hcut
  | cons c rest ih =>
    simp only [cut] at hcut
    split at hcut
    · rename_i hmark
      obtain ⟨rfl, hafter⟩ := Prod.mk.inj hcut
      exact ⟨c, hmark, by rw [Option.some.inj hafter]; rfl⟩
    · obtain ⟨rfl, hafter⟩ := Prod.mk.inj hcut
      obtain ⟨mark, hmark, hrest⟩ := @ih (cut isMark rest).1 (by rw [← hafter])
      exact ⟨mark, hmark, by rw [List.cons_append, ← hrest]⟩

theorem cut_of_forall {isMark : Char → Bool} {text : List Char}
    (hno : ∀ c ∈ text, isMark c = false) : cut isMark text = (text, none) := by
  induction text with
  | nil => rfl
  | cons c rest ih =>
    rw [cut, if_neg (by simp [hno c List.mem_cons_self]),
      ih fun d hd => hno d (List.mem_cons_of_mem _ hd)]

theorem cut_append_cons {isMark : Char → Bool} {before : List Char} {mark : Char}
    (hno : ∀ c ∈ before, isMark c = false) (hmark : isMark mark = true) (after : List Char) :
    cut isMark (before ++ mark :: after) = (before, some after) := by
  induction before with
  | nil => rw [List.nil_append, cut, if_pos hmark]
  | cons c rest ih =>
    rw [List.cons_append, cut, if_neg (by simp [hno c List.mem_cons_self]),
      ih fun d hd => hno d (List.mem_cons_of_mem _ hd)]

end LedgerValue.Text

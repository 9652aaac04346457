import LedgerValue.Proofs.Pointwise
import LedgerValue.Proofs.Text.Quoted
import LedgerValue.Reproduction

/-!
# Reading expressions

An expression is a word, a quoted text, or parts between brackets. A reader that keeps count of the
brackets and of whether it stands between quotes comes to the end of an expression whatever follows
(`skip_append`), so that a text begins with one expression only (`eq_of_isExpression_append`). Main
statement: parts are told apart by how they are joined (`eq_of_joined_eq`), and with them a function
and its arguments by how it is applied to them (`eq_of_spelled_eq`).
-/

namespace LedgerValue.Reproduction

/-- The character closes, opens or parts expressions. -/
def isMark (c : Char) : Bool := ['(', ')', '[', ']', ',', '"'].contains c

/-- Nothing in the text closes, opens or parts expressions. -/
def IsPlain (text : List Char) : Prop := ∀ c ∈ text, isMark c = false

instance (text : List Char) : Decidable (IsPlain text) :=
  List.decidableBAll (isMark · = false) text

/-- The text is an expression. -/
inductive IsExpression : List Char → Prop
  /-- A word. -/
  | word {text : List Char} (hplain : IsPlain text) (hne : text ≠ []) : IsExpression text
  /-- A quoted text. -/
  | quoted (text : List Char) : IsExpression (Text.quotedChars text)
  /-- Parts in brackets, and what stands in front of them. -/
  | bracketed {front : List Char} {opening closing : Char} {parts : List (List Char)}
      (hfront : IsPlain front) (hbrackets : (opening, closing) ∈ [('(', ')'), ('[', ']')])
      (hparts : ∀ part ∈ parts, IsExpression part) :
    IsExpression (front ++ opening :: joined parts ++ [closing])
  /-- An expression, and what is done with it. -/
  | followed {text suffix : List Char} (htext : IsExpression text) (hsuffix : IsExpression suffix) :
    IsExpression (text ++ suffix)

/-- Where a reader of expressions stands. -/
inductive Mode where
  /-- Outside of quotes, so many brackets deep. -/
  | outside (depth : Nat)
  /-- Between quotes. -/
  | quoted (depth : Nat)
  /-- Between quotes after a backslash. -/
  | escaped (depth : Nat)

/-- Where a reader stands after one more character, unless the expression has come to its end. -/
def Mode.next? : Mode → Char → Option Mode
  | outside depth, c =>
    if c = '"' then some (quoted depth)
    else if c = '(' ∨ c = '[' then some (outside (depth + 1))
    else if c = ')' ∨ c = ']' then if depth = 0 then none else some (outside (depth - 1))
    else if c = ',' ∧ depth = 0 then none
    else some (outside depth)
  | quoted depth, c =>
    if c = '"' then some (outside depth)
    else if c = '\\' then some (escaped depth)
    else some (quoted depth)
  | escaped depth, _ => some (quoted depth)

/-- What follows the expression that a reader stands in. -/
def skip : Mode → List Char → List Char
  | _, [] => []
  | mode, c :: rest =>
    match mode.next? c with
    | none => c :: rest
    | some next => skip next rest

/-- Reading the text leads from one mode to another. -/
def Leads (mode : Mode) (text : List Char) (next : Mode) : Prop :=
  ∀ rest, skip mode (text ++ rest) = skip next rest

variable {mode next last : Mode} {c : Char} {text other rest after suffix : List Char}
  {parts others : List (List Char)} {name otherName : String}

section Reader

theorem leads_nil (mode : Mode) : Leads mode [] mode := fun _ => rfl

theorem leads_append (htext : Leads mode text next) (hother : Leads next other last) :
    Leads mode (text ++ other) last := by
  intro rest
  rw [List.append_assoc, htext, hother]

theorem leads_cons (hnext : mode.next? c = some next) (htext : Leads next text last) :
    Leads mode (c :: text) last := by
  intro rest
  rw [List.cons_append, skip, hnext]
  exact htext rest

theorem leads_of_isPlain (hplain : IsPlain text) (depth : Nat) :
    Leads (.outside depth) text (.outside depth) := by
  induction text with
  | nil => exact leads_nil _
  | cons c text ih =>
    obtain ⟨hc, htext⟩ := List.forall_mem_cons.mp hplain
    refine leads_cons ?_ (ih htext)
    simp only [isMark, List.contains_cons, List.contains_nil, Bool.or_false, Bool.or_eq_false_iff,
      beq_eq_false_iff_ne] at hc
    simp [Mode.next?, hc]

/-- Nothing but a quote or a backslash changes anything between quotes. -/
theorem leads_between (htext : ∀ c ∈ text, c ≠ '"' ∧ c ≠ '\\') (depth : Nat) :
    Leads (.quoted depth) text (.quoted depth) := by
  induction text with
  | nil => exact leads_nil _
  | cons c text ih =>
    obtain ⟨⟨hquote, hbackslash⟩, hrest⟩ := List.forall_mem_cons.mp htext
    exact leads_cons (by simp [Mode.next?, hquote, hbackslash]) (ih hrest)

theorem leads_codePointEscape (c : Char) (depth : Nat) :
    Leads (.quoted depth) (Text.codePointEscape c) (.quoted depth) := by
  have hdigits : ∀ d ∈ '\x7b' :: Nat.toDigits 16 c.toNat ++ ['\x7d'], d ≠ '"' ∧ d ≠ '\\' := by
    intro d hmem
    rw [List.mem_append, List.mem_cons, List.mem_singleton] at hmem
    rcases hmem with (rfl | hmem) | rfl
    · decide
    · exact ⟨Text.ne_of_mem_toDigits (by decide) hmem, Text.ne_of_mem_toDigits (by decide) hmem⟩
    · decide
  exact leads_cons rfl (leads_cons rfl (leads_between hdigits depth))

/-- The spelling of a character does not lead out of the quotes. -/
theorem leads_of_spellsChar (htext : Text.SpellsChar c text) (depth : Nat) :
    Leads (.quoted depth) text (.quoted depth) := by
  cases htext with
  | plain hquote hbackslash => exact leads_between (by simp [hquote, hbackslash]) depth
  | short hmem => exact leads_cons rfl (leads_cons rfl (leads_nil _))
  | codePoint => exact leads_codePointEscape c depth

theorem leads_quotedChars (text : List Char) (depth : Nat) :
    Leads (.outside depth) (Text.quotedChars text) (.outside depth) := by
  have hbetween : Leads (.quoted depth) (text.flatMap Text.quotedChar) (.quoted depth) := by
    induction text with
    | nil => exact leads_nil _
    | cons c text ih => exact leads_append (leads_of_spellsChar (Text.spellsChar_quotedChar c) _) ih
  exact leads_cons rfl (leads_append hbetween (leads_cons rfl (leads_nil _)))

/-- Within brackets a comma does not end anything. -/
theorem leads_joined {depth : Nat}
    (hparts : ∀ part ∈ parts, Leads (.outside (depth + 1)) part (.outside (depth + 1))) :
    Leads (.outside (depth + 1)) (joined parts) (.outside (depth + 1)) := by
  fun_induction joined parts with
  | case1 => exact leads_nil _
  | case2 part => exact hparts part List.mem_cons_self
  | case3 part following rest ih =>
    obtain ⟨hpart, hrest⟩ := List.forall_mem_cons.mp hparts
    exact leads_append hpart (leads_cons rfl (leads_cons rfl (ih hrest)))

theorem next?_of_brackets {opening closing : Char}
    (hbrackets : (opening, closing) ∈ [('(', ')'), ('[', ']')]) (depth : Nat) :
    (Mode.outside depth).next? opening = some (.outside (depth + 1)) ∧
      (Mode.outside (depth + 1)).next? closing = some (.outside depth) := by
  simp only [List.mem_cons, Prod.mk.injEq, List.not_mem_nil, or_false] at hbrackets
  rcases hbrackets with ⟨rfl, rfl⟩ | ⟨rfl, rfl⟩ <;> exact ⟨rfl, rfl⟩

/-- An expression leads back to where it began. -/
theorem leads_of_isExpression (htext : IsExpression text) (depth : Nat) :
    Leads (.outside depth) text (.outside depth) := by
  induction htext generalizing depth with
  | word hplain hne => exact leads_of_isPlain hplain depth
  | quoted text => exact leads_quotedChars text depth
  | @bracketed front opening closing parts hfront hbrackets hparts ih =>
    have hinside := leads_joined fun part hmem => ih part hmem (depth + 1)
    obtain ⟨hopening, hclosing⟩ := next?_of_brackets hbrackets depth
    exact leads_append (leads_append (leads_of_isPlain hfront depth) (leads_cons hopening hinside))
      (leads_cons hclosing (leads_nil _))
  | followed _ _ ih ihSuffix => exact leads_append (ih depth) (ihSuffix depth)

end Reader

section Parts

theorem ne_nil_of_isExpression (htext : IsExpression text) : text ≠ [] := by
  induction htext with
  | word _ hne => exact hne
  | quoted => simp [Text.quotedChars]
  | bracketed => simp
  | followed _ _ ih => simp [ih]

/-- Where an expression ends: at the end of the text, at a comma or where a bracket closes. -/
def Ends (rest : List Char) : Prop := skip (.outside 0) rest = rest

theorem ends_nil : Ends [] := rfl

theorem ends_cons (hc : c ∈ [',', ')', ']']) (rest : List Char) : Ends (c :: rest) := by
  have hnext : (Mode.outside 0).next? c = none := by
    simp only [List.mem_cons, List.not_mem_nil, or_false] at hc
    rcases hc with rfl | rfl | rfl <;> rfl
  rw [Ends, skip, hnext]

/-- A text begins with one expression only. -/
theorem eq_of_isExpression_append (htext : IsExpression text) (hother : IsExpression other)
    (hrest : Ends rest) (hafter : Ends after) (hsame : text ++ rest = other ++ after) :
    text = other ∧ rest = after := by
  have hskip := congrArg (skip (.outside 0)) hsame
  rw [leads_of_isExpression htext, leads_of_isExpression hother, hrest, hafter] at hskip
  subst hskip
  exact ⟨List.append_cancel_right hsame, rfl⟩

/-- What follows the first of some joined parts. -/
def joinedAfter : List (List Char) → List Char
  | [] => []
  | next :: rest => ',' :: ' ' :: joined (next :: rest)

@[simp]
theorem joined_cons (part : List Char) (rest : List (List Char)) :
    joined (part :: rest) = part ++ joinedAfter rest := by
  cases rest with
  | nil => rw [joined, joinedAfter, List.append_nil]
  | cons next rest => rw [joined, joinedAfter]

theorem ends_joinedAfter (parts : List (List Char)) : Ends (joinedAfter parts) := by
  cases parts with
  | nil => exact ends_nil
  | cons => exact ends_cons (by simp) _

theorem joined_eq_of_joinedAfter_eq (hsame : joinedAfter parts = joinedAfter others) :
    joined parts = joined others := by
  cases parts with
  | nil =>
    cases others with
    | nil => rfl
    | cons => cases hsame
  | cons =>
    cases others with
    | nil => cases hsame
    | cons => exact (List.cons.inj (List.cons.inj hsame).2).2

theorem joined_cons_ne_nil {part : List Char} (hpart : IsExpression part)
    (rest : List (List Char)) : joined (part :: rest) ≠ [] := by
  simp [ne_nil_of_isExpression hpart]

/-- No parts but the same are joined to the same text. -/
theorem eq_of_joined_eq (hparts : ∀ part ∈ parts, IsExpression part)
    (hothers : ∀ part ∈ others, IsExpression part) (hsame : joined parts = joined others) :
    parts = others := by
  induction parts generalizing others with
  | nil =>
    cases others with
    | nil => rfl
    | cons other others =>
      exact absurd hsame.symm (joined_cons_ne_nil (hothers other List.mem_cons_self) others)
  | cons part parts ih =>
    cases others with
    | nil => exact absurd hsame (joined_cons_ne_nil (hparts part List.mem_cons_self) parts)
    | cons other others =>
      obtain ⟨hpart, hrest⟩ := List.forall_mem_cons.mp hparts
      obtain ⟨hother, hafter⟩ := List.forall_mem_cons.mp hothers
      rw [joined_cons, joined_cons] at hsame
      obtain ⟨rfl, hfollowing⟩ := eq_of_isExpression_append hpart hother (ends_joinedAfter parts)
        (ends_joinedAfter others) hsame
      rw [ih hrest hafter (joined_eq_of_joinedAfter_eq hfollowing)]

end Parts

section Forms

/-- A name, applied to arguments if there is a list of them. -/
def spelled (name : String) : Option (List (List Char)) → List Char
  | none => name.toList
  | some arguments => applied name arguments

/-- The expressions that a name is applied to, if it is. -/
def HoldsExpressions (arguments : Option (List (List Char))) : Prop :=
  ∀ parts, arguments = some parts → ∀ part ∈ parts, IsExpression part

variable {arguments otherArguments : Option (List (List Char))}

theorem holdsExpressions_none : HoldsExpressions none := fun _ hparts => by cases hparts

theorem holdsExpressions_some (hparts : ∀ part ∈ parts, IsExpression part) :
    HoldsExpressions (some parts) := by
  intro found hfound
  obtain rfl := Option.some.inj hfound
  exact hparts

theorem isExpression_applied (hname : IsPlain name.toList)
    (hparts : ∀ part ∈ parts, IsExpression part) : IsExpression (applied name parts) :=
  .bracketed hname (by simp) hparts

theorem isExpression_sequence (hparts : ∀ part ∈ parts, IsExpression part) :
    IsExpression (sequence parts) :=
  @IsExpression.bracketed "vec!".toList '[' ']' parts (by decide) (by simp) hparts

theorem isExpression_table (hparts : ∀ part ∈ parts, IsExpression part) :
    IsExpression (table parts) :=
  @IsExpression.bracketed [] '[' ']' parts (by decide) (by simp) hparts

theorem isExpression_of_mem_pair (htext : IsExpression text) (hother : IsExpression other) :
    ∀ part ∈ [text, other], IsExpression part :=
  List.forall_mem_cons.mpr ⟨htext, List.forall_mem_singleton.mpr hother⟩

theorem isExpression_pair (htext : IsExpression text) (hother : IsExpression other) :
    IsExpression (pair text other) :=
  @IsExpression.bracketed [] '(' ')' [text, other] (by decide) (by simp)
    (isExpression_of_mem_pair htext hother)

theorem isExpression_quoted (text : String) : IsExpression (quoted text) := .quoted text.toList

theorem isExpression_spelled (hname : IsPlain name.toList) (hne : name.toList ≠ [])
    (harguments : HoldsExpressions arguments) : IsExpression (spelled name arguments) := by
  cases arguments with
  | none => exact .word hname hne
  | some parts => exact isExpression_applied hname (harguments parts rfl)

theorem cut_spelled (hname : IsPlain name.toList) (arguments : Option (List (List Char))) :
    Text.cut isMark (spelled name arguments) =
      (name.toList, arguments.map fun parts => joined parts ++ [')']) := by
  cases arguments with
  | none => exact Text.cut_of_forall hname
  | some parts =>
    rw [spelled, applied, List.append_assoc, List.cons_append]
    exact Text.cut_append_cons hname rfl _

/-- A name and the expressions that it is applied to are told by how this is spelled. -/
theorem eq_of_spelled_eq (hname : IsPlain name.toList) (hotherName : IsPlain otherName.toList)
    (harguments : HoldsExpressions arguments) (hothers : HoldsExpressions otherArguments)
    (hsame : spelled name arguments = spelled otherName otherArguments) :
    name = otherName ∧ arguments = otherArguments := by
  have hcut := congrArg (Text.cut isMark) hsame
  rw [cut_spelled hname, cut_spelled hotherName] at hcut
  obtain ⟨hnames, hparts⟩ := Prod.mk.inj hcut
  refine ⟨String.toList_inj.mp hnames, ?_⟩
  cases arguments with
  | none =>
    cases otherArguments with
    | none => rfl
    | some others => cases hparts
  | some parts =>
    cases otherArguments with
    | none => cases hparts
    | some others =>
      have hjoined := List.append_cancel_right (Option.some.inj hparts)
      rw [eq_of_joined_eq (harguments parts rfl) (hothers others rfl) hjoined]

theorem eq_of_applied_eq (hname : IsPlain name.toList) (hotherName : IsPlain otherName.toList)
    (hparts : ∀ part ∈ parts, IsExpression part) (hothers : ∀ part ∈ others, IsExpression part)
    (hsame : applied name parts = applied otherName others) :
    name = otherName ∧ parts = others := by
  obtain ⟨hnames, harguments⟩ := eq_of_spelled_eq hname hotherName (holdsExpressions_some hparts)
    (holdsExpressions_some hothers) hsame
  exact ⟨hnames, Option.some.inj harguments⟩

theorem eq_of_quoted_eq {text other : String} (hsame : quoted text = quoted other) :
    text = other :=
  String.toList_inj.mp (Text.eq_of_quotedChars_eq hsame)

theorem eq_of_sequence_eq (hparts : ∀ part ∈ parts, IsExpression part)
    (hothers : ∀ part ∈ others, IsExpression part) (hsame : sequence parts = sequence others) :
    parts = others :=
  eq_of_joined_eq hparts hothers (List.append_cancel_left (List.append_cancel_right hsame))

theorem eq_of_table_eq (hparts : ∀ part ∈ parts, IsExpression part)
    (hothers : ∀ part ∈ others, IsExpression part) (hsame : table parts = table others) :
    parts = others :=
  eq_of_joined_eq hparts hothers (List.append_cancel_right (List.cons.inj hsame).2)

theorem eq_of_pair_eq (htext : IsExpression text) (hother : IsExpression other)
    {third fourth : List Char} (hthird : IsExpression third) (hfourth : IsExpression fourth)
    (hsame : pair text other = pair third fourth) : text = third ∧ other = fourth := by
  have hjoined := List.append_cancel_right (List.cons.inj hsame).2
  have hparts := eq_of_joined_eq (isExpression_of_mem_pair htext hother)
    (isExpression_of_mem_pair hthird hfourth) hjoined
  simpa using hparts

end Forms

section Members

variable {α : Type} {spell : α → List Char} {key : String → List Char}

/-- A sequence of spelled members determines the members that are told by their spelling. -/
theorem eq_of_sequence_map_eq {members others : List α}
    (hspell : ∀ member, IsExpression (spell member))
    (htold : ∀ member ∈ members, ∀ other ∈ others, spell member = spell other → member = other)
    (hsame : sequence (members.map spell) = sequence (others.map spell)) : members = others :=
  eq_of_map_eq htold (eq_of_sequence_eq (List.forall_mem_map.mpr fun member _ => hspell member)
    (List.forall_mem_map.mpr fun member _ => hspell member) hsame)

/-- The pairs of spelled keys and members. -/
def pairs (key : String → List Char) (spell : α → List Char) (entries : List (String × α)) :
    List (List Char) :=
  entries.map fun entry => pair (key entry.1) (spell entry.2)

variable {entries others : List (String × α)}

theorem isExpression_of_mem_pairs (hkey : ∀ name, IsExpression (key name))
    (hspell : ∀ entry ∈ entries, IsExpression (spell entry.2)) :
    ∀ part ∈ pairs key spell entries, IsExpression part :=
  List.forall_mem_map.mpr fun entry hmem => isExpression_pair (hkey entry.1) (hspell entry hmem)

/-- A table of spelled entries determines the entries whose members are told by their spelling. -/
theorem eq_of_table_pairs_eq (hkey : ∀ name, IsExpression (key name))
    (hkeys : ∀ name other, key name = key other → name = other)
    (hspell : ∀ member, IsExpression (spell member))
    (htold : ∀ entry ∈ entries, ∀ other ∈ others,
      spell entry.2 = spell other.2 → entry.2 = other.2)
    (hsame : table (pairs key spell entries) = table (pairs key spell others)) :
    entries = others := by
  have hparts := eq_of_table_eq (isExpression_of_mem_pairs hkey fun entry _ => hspell entry.2)
    (isExpression_of_mem_pairs hkey fun entry _ => hspell entry.2) hsame
  refine eq_of_map_eq (fun entry hmem other hother hpair => ?_) hparts
  obtain ⟨hnames, hmembers⟩ := eq_of_pair_eq (hkey entry.1) (hspell entry.2) (hkey other.1)
    (hspell other.2) hpair
  exact Prod.ext (hkeys _ _ hnames) (htold entry hmem other hother hmembers)

end Members

end LedgerValue.Reproduction

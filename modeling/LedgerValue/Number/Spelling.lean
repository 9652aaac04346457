import LedgerValue.Number.Literal

/-!
# The grammar of decimal literals

The rules of the grammar, as relations between texts and the parts that they spell. Main
statement: a literal is read from exactly its spellings, as long as the written exponent fits a
word (`read?_eq_some_iff`).
-/

namespace LedgerValue.Literal

/-- The text spells an exponent, zero if it is empty. -/
inductive SpellsExponent : List Char → Int → Prop
  /-- Without an exponent. -/
  | absent : SpellsExponent [] 0
  /-- The letter e of either case, an optional minus sign and digits. -/
  | written {mark : Char} {negative : Bool} {ds : List Char} (hmark : mark = 'e' ∨ mark = 'E')
      (hdigits : Text.allDigits ds = true) (hne : ds ≠ []) :
    SpellsExponent (mark :: (Text.minus negative ++ ds))
      (if negative then -(Text.readDigits ds : Int) else Text.readDigits ds)

/-- The text spells the digits before and after the point, of which there are some. -/
inductive SpellsMantissa : List Char → List Char → List Char → Prop
  /-- Without a point. -/
  | whole {whole : List Char} (hwhole : Text.allDigits whole = true) (hne : whole ≠ []) :
    SpellsMantissa whole whole []
  /-- With a point. -/
  | pointed {whole fraction : List Char} (hwhole : Text.allDigits whole = true)
      (hfraction : Text.allDigits fraction = true) (hne : whole ≠ [] ∨ fraction ≠ []) :
    SpellsMantissa (whole ++ '.' :: fraction) whole fraction

/-- The text spells a literal: an optional minus sign, the digits and the exponent. -/
def Spells (text : List Char) (literal : Literal) : Prop :=
  ∃ mantissa exponent, SpellsMantissa mantissa literal.whole literal.fraction
    ∧ SpellsExponent exponent literal.exponent
    ∧ text = Text.minus literal.negative ++ (mantissa ++ exponent)

theorem isExponentMark_iff {c : Char} : isExponentMark c = true ↔ c = 'e' ∨ c = 'E' := by
  simp [isExponentMark]

theorem digits?_eq_some_iff {text ds : List Char} :
    digits? text = some ds ↔ Text.allDigits text = true ∧ text = ds := by
  unfold digits?
  split <;> simp_all

theorem isExponentMark_of_isDigit {c : Char} (hdigit : c.isDigit = true) :
    isExponentMark c = false := by
  cases hmark : isExponentMark c with
  | false => rfl
  | true =>
    rcases isExponentMark_iff.mp hmark with rfl | rfl <;> exact absurd hdigit (by decide)

theorem head?_ne_minus {ds rest : List Char} (hdigits : Text.allDigits ds = true)
    (hrest : ds = [] → rest.head? ≠ some '-') : (ds ++ rest).head? ≠ some '-' := by
  cases ds with
  | nil => exact hrest rfl
  | cons c ds =>
    rw [Text.allDigits, List.all_cons, Bool.and_eq_true] at hdigits
    simpa using Text.ne_of_isDigit hdigits.1 rfl

theorem readExponent?_eq_some_iff {text : List Char} {n : Int} :
    readExponent? text = some n ↔
      ∃ negative ds, Text.allDigits ds = true ∧ ds ≠ [] ∧ text = Text.minus negative ++ ds
        ∧ Word.IsSigned (Text.readDigits ds)
        ∧ n = if negative then -(Text.readDigits ds : Int) else Text.readDigits ds := by
  constructor
  · intro hread
    have htext := Text.minus_append_takeMinus text
    unfold readExponent? at hread
    simp only at hread
    split at hread
    · simp at hread
    · rename_i hne
      obtain ⟨ds, hds, hread⟩ := Option.bind_eq_some_iff.mp hread
      obtain ⟨hdigits, rfl⟩ := digits?_eq_some_iff.mp hds
      obtain ⟨magnitude, hmagnitude, rfl⟩ := Option.map_eq_some_iff.mp hread
      obtain ⟨hword, rfl⟩ := Word.signed?_eq_some_iff.mp hmagnitude
      refine ⟨(Text.takeMinus text).1, (Text.takeMinus text).2, hdigits, ?_, htext.symm, hword, rfl⟩
      simpa using hne
  · rintro ⟨negative, ds, hdigits, hne, rfl, hword, rfl⟩
    have hhead : ds.head? ≠ some '-' := by
      simpa using @head?_ne_minus ds [] hdigits fun hnil => absurd hnil hne
    have hempty : ds.isEmpty = false := by simpa using hne
    have hread : digits? ds = some ds := digits?_eq_some_iff.mpr ⟨hdigits, rfl⟩
    have hfits : Word.signed? (Text.readDigits ds) = some (Text.readDigits ds : Int) :=
      Word.signed?_eq_some_iff.mpr ⟨hword, rfl⟩
    rw [readExponent?, Text.takeMinus_minus_append hhead]
    simp only [hempty, Bool.false_eq_true, if_false]
    rw [hread, Option.bind_some, hfits, Option.map_some]

theorem spellsExponent_of_read {tail : Option (List Char)} {n : Int}
    (hread : tail.elim (some 0) readExponent? = some n) {mark : Char}
    (hmark : isExponentMark mark = true) :
    SpellsExponent (tail.elim [] (mark :: ·)) n ∧ Word.IsSigned n.natAbs := by
  cases tail with
  | none =>
    obtain rfl := Option.some.inj hread
    exact ⟨.absent, by decide⟩
  | some text =>
    obtain ⟨negative, ds, hdigits, hne, rfl, hword, rfl⟩ := readExponent?_eq_some_iff.mp hread
    refine ⟨.written (isExponentMark_iff.mp hmark) hdigits hne, ?_⟩
    cases negative <;> simpa using hword

theorem elim_readExponent? {text : List Char} {n : Int} (hspells : SpellsExponent text n)
    (hword : Word.IsSigned n.natAbs) :
    ∃ tail, tail.elim (some 0) readExponent? = some n ∧ ∀ mantissa : List Char,
      (∀ c ∈ mantissa, isExponentMark c = false) →
        Text.cut isExponentMark (mantissa ++ text) = (mantissa, tail) := by
  cases hspells with
  | absent =>
    refine ⟨none, rfl, fun mantissa hmantissa => ?_⟩
    rw [List.append_nil, Text.cut_of_forall hmantissa]
  | @written mark negative ds hmark hdigits hne =>
    refine ⟨some (Text.minus negative ++ ds), readExponent?_eq_some_iff.mpr
      ⟨negative, ds, hdigits, hne, rfl, ?_, rfl⟩, fun mantissa hmantissa => ?_⟩
    · cases negative <;> simpa using hword
    · exact Text.cut_append_cons hmantissa (isExponentMark_iff.mpr hmark) _

theorem isDigit_of_mem {ds : List Char} (hdigits : Text.allDigits ds = true) {c : Char}
    (hmem : c ∈ ds) : c.isDigit = true :=
  List.all_eq_true.mp hdigits c hmem

theorem ne_point_of_mem {ds : List Char} (hdigits : Text.allDigits ds = true) :
    ∀ c ∈ ds, (c == '.') = false := by
  intro c hmem
  refine beq_false_of_ne ?_
  rintro rfl
  exact absurd (isDigit_of_mem hdigits hmem) (by decide)

theorem spellsMantissa_of_cut {mantissa whole : List Char} {tail : Option (List Char)}
    (hcut : Text.cut (· == '.') mantissa = (whole, tail))
    (hwhole : Text.allDigits whole = true) (hfraction : Text.allDigits (tail.getD []) = true)
    (hne : whole ≠ [] ∨ tail.getD [] ≠ []) : SpellsMantissa mantissa whole (tail.getD []) := by
  cases tail with
  | none =>
    obtain rfl := Text.eq_of_cut_none hcut
    exact .whole hwhole (hne.resolve_right (by simp))
  | some fraction =>
    obtain ⟨mark, hmark, rfl⟩ := Text.eq_append_of_cut_some hcut
    obtain rfl := eq_of_beq hmark
    exact .pointed hwhole hfraction hne

theorem cut_of_spellsMantissa {mantissa whole fraction : List Char}
    (hspells : SpellsMantissa mantissa whole fraction) :
    Text.allDigits whole = true ∧ Text.allDigits fraction = true ∧ (whole ≠ [] ∨ fraction ≠ [])
      ∧ ∃ tail, Text.cut (· == '.') mantissa = (whole, tail) ∧ tail.getD [] = fraction := by
  cases hspells with
  | whole hwhole hne =>
    exact ⟨hwhole, rfl, .inl hne, none, Text.cut_of_forall (ne_point_of_mem hwhole), rfl⟩
  | pointed hwhole hfraction hne =>
    exact ⟨hwhole, hfraction, hne, some fraction,
      Text.cut_append_cons (ne_point_of_mem hwhole) (by decide) _, rfl⟩

theorem isExponentMark_of_spellsMantissa {mantissa whole fraction : List Char}
    (hspells : SpellsMantissa mantissa whole fraction) :
    ∀ c ∈ mantissa, isExponentMark c = false := by
  intro c hmem
  cases hspells with
  | whole hwhole _ => exact isExponentMark_of_isDigit (isDigit_of_mem hwhole hmem)
  | pointed hwhole hfraction _ =>
    rcases List.mem_append.mp hmem with hmem | hmem
    · exact isExponentMark_of_isDigit (isDigit_of_mem hwhole hmem)
    · rcases List.mem_cons.mp hmem with rfl | hmem
      · decide
      · exact isExponentMark_of_isDigit (isDigit_of_mem hfraction hmem)

theorem head?_ne_minus_of_spellsMantissa {mantissa whole fraction rest : List Char}
    (hspells : SpellsMantissa mantissa whole fraction) :
    (mantissa ++ rest).head? ≠ some '-' := by
  cases hspells with
  | whole hwhole hne => exact head?_ne_minus hwhole fun hnil => absurd hnil hne
  | pointed hwhole _ _ =>
    rw [List.append_assoc]
    exact head?_ne_minus hwhole fun _ => by simp

theorem read?_eq_some_iff {text : List Char} {literal : Literal} :
    read? text = some literal ↔ Spells text literal ∧ Word.IsSigned literal.exponent.natAbs := by
  constructor
  · intro hread
    have htext := Text.minus_append_takeMinus text
    unfold read? at hread
    simp only at hread
    split at hread
    · simp at hread
    · rename_i hne
      rw [Bool.and_eq_true, List.isEmpty_iff, List.isEmpty_iff] at hne
      obtain ⟨whole, hwholeRead, hread⟩ := Option.bind_eq_some_iff.mp hread
      obtain ⟨fraction, hfractionRead, hread⟩ := Option.bind_eq_some_iff.mp hread
      obtain ⟨exponent, hexponent, rfl⟩ := Option.map_eq_some_iff.mp hread
      obtain ⟨hwhole, rfl⟩ := digits?_eq_some_iff.mp hwholeRead
      obtain ⟨hfraction, rfl⟩ := digits?_eq_some_iff.mp hfractionRead
      have hmantissa := spellsMantissa_of_cut rfl hwhole hfraction
        (Decidable.not_and_iff_or_not.mp hne)
      generalize hcut : Text.cut isExponentMark (Text.takeMinus text).2 = cuts at *
      obtain ⟨mantissa, tail⟩ := cuts
      cases tail with
      | none =>
        have hspells := spellsExponent_of_read hexponent (show isExponentMark 'e' = true by decide)
        refine ⟨⟨mantissa, [], hmantissa, hspells.1, ?_⟩, hspells.2⟩
        rw [List.append_nil, ← Text.eq_of_cut_none hcut, htext]
      | some after =>
        obtain ⟨mark, hmark, happend⟩ := Text.eq_append_of_cut_some hcut
        have hspells := spellsExponent_of_read hexponent hmark
        refine ⟨⟨mantissa, mark :: after, hmantissa, hspells.1, ?_⟩, hspells.2⟩
        rw [← happend, htext]
  · rintro ⟨⟨mantissa, exponent, hmantissa, hexponent, rfl⟩, hword⟩
    obtain ⟨hwhole, hfraction, hne, point, hpoint, hgetD⟩ := cut_of_spellsMantissa hmantissa
    obtain ⟨tail, htail, hcut⟩ := elim_readExponent? hexponent hword
    have hempty : (literal.whole.isEmpty && literal.fraction.isEmpty) = false := by
      cases hempty : literal.whole.isEmpty && literal.fraction.isEmpty with
      | false => rfl
      | true =>
        rw [Bool.and_eq_true, List.isEmpty_iff, List.isEmpty_iff] at hempty
        exact (hne.elim (· hempty.1) (· hempty.2)).elim
    have hread (ds : List Char) (hds : Text.allDigits ds = true) : digits? ds = some ds :=
      digits?_eq_some_iff.mpr ⟨hds, rfl⟩
    rw [read?, Text.takeMinus_minus_append (head?_ne_minus_of_spellsMantissa hmantissa)]
    simp only [hcut mantissa (isExponentMark_of_spellsMantissa hmantissa), hpoint, hgetD, hempty,
      Bool.false_eq_true, if_false]
    rw [hread _ hwhole, Option.bind_some, hread _ hfraction, Option.bind_some, htail,
      Option.map_some]

theorem mem_minus {c : Char} {negative : Bool} (hmem : c ∈ Text.minus negative) : c = '-' := by
  unfold Text.minus at hmem
  split at hmem
  · exact List.mem_singleton.mp hmem
  · cases hmem

theorem mem_of_spellsMantissa {c : Char} {mantissa whole fraction : List Char}
    (hspells : SpellsMantissa mantissa whole fraction) (hmem : c ∈ mantissa) :
    c.isDigit = true ∨ c = '.' := by
  cases hspells with
  | whole hwhole _ => exact .inl (isDigit_of_mem hwhole hmem)
  | pointed hwhole hfraction _ =>
    rcases List.mem_append.mp hmem with hmem | hmem
    · exact .inl (isDigit_of_mem hwhole hmem)
    · exact (List.mem_cons.mp hmem).symm.imp_left (isDigit_of_mem hfraction)

theorem mem_of_spellsExponent {c : Char} {text : List Char} {exponent : Int}
    (hspells : SpellsExponent text exponent) (hmem : c ∈ text) :
    c.isDigit = true ∨ c = '-' ∨ c = 'e' ∨ c = 'E' := by
  cases hspells with
  | absent => cases hmem
  | written hmark hdigits _ =>
    rcases List.mem_cons.mp hmem with rfl | hmem
    · exact .inr (.inr hmark)
    · rcases List.mem_append.mp hmem with hmem | hmem
      · exact .inr (.inl (mem_minus hmem))
      · exact .inl (isDigit_of_mem hdigits hmem)

/-- Nothing but digits, signs, points and marks of exponents stands in a literal. -/
theorem mem_of_spells {c : Char} {text : List Char} {literal : Literal}
    (hspells : Spells text literal) (hmem : c ∈ text) :
    c.isDigit = true ∨ c ∈ ['-', '.', 'e', 'E'] := by
  obtain ⟨mantissa, exponent, hmantissa, hexponent, rfl⟩ := hspells
  rw [List.mem_append, List.mem_append] at hmem
  rcases hmem with hmem | hmem | hmem
  · exact .inr (by simp [mem_minus hmem])
  · exact (mem_of_spellsMantissa hmantissa hmem).imp_right fun hpoint => by simp [hpoint]
  · refine (mem_of_spellsExponent hexponent hmem).imp_right fun hmark => ?_
    rcases hmark with rfl | rfl | rfl <;> simp

/-- The screen for foreign characters refuses no spelling. -/
theorem all_isConstituent {text : List Char} {literal : Literal} (hspells : Spells text literal) :
    text.all isConstituent = true :=
  List.all_eq_true.mpr fun c hmem => by simpa [isConstituent] using mem_of_spells hspells hmem

end LedgerValue.Literal

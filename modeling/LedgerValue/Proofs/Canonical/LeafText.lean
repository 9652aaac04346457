import LedgerValue.Proofs.Canonical.Strictness
import LedgerValue.Proofs.Text.Hex

/-!
# The texts of leaves

The readers of payloads and ratios take more than what is written: a plus sign for the first digit
of a byte or in front of an integer, and underscores among the digits of an integer. What they take
is told apart from strict spellings by these characters alone. Main statement: both readers give a
value on exactly their spellings and refuse every other text (`leafTexts_read`).
-/

namespace LedgerValue.Canonical

/-- A decimal digit, and further digits and underscores. -/
def IsGrouped (text : List Char) : Prop :=
  ∃ first rest, text = first :: rest ∧ first.isDigit = true ∧
    ∀ c ∈ rest, c.isDigit = true ∨ c = '_'

/-- The natural that grouped digits denote. -/
def groupedValue (text : List Char) : Nat := Text.readDigits (text.filter Char.isDigit)

/-- The text spells an integer for the reader of ratios. -/
inductive SpellsInteger : List Char → Int → Prop
  /-- Without a sign. -/
  | plain {text : List Char} (hgrouped : IsGrouped text) : SpellsInteger text (groupedValue text)
  /-- After a plus sign. -/
  | plus {text : List Char} (hgrouped : IsGrouped text) :
    SpellsInteger ('+' :: text) (groupedValue text)
  /-- After a minus sign. -/
  | minus {text : List Char} (hgrouped : IsGrouped text) :
    SpellsInteger ('-' :: text) (-(groupedValue text : Int))

/-- The text spells a numerator and a denominator around a slash. -/
def SpellsRatio (text : List Char) (numerator denominator : Int) : Prop :=
  ∃ before after, text = before ++ '/' :: after ∧ SpellsInteger before numerator ∧
    SpellsInteger after denominator

/-- An optional minus sign and decimal digits, of which there are some. -/
def IsInteger (text : List Char) : Prop :=
  ∃ negative ds, text = Text.minus negative ++ ds ∧ Text.allDigits ds = true ∧ ds ≠ []

/-- Two such integers around a slash. -/
def IsRatio (text : List Char) : Prop :=
  ∃ before after, text = before ++ '/' :: after ∧ IsInteger before ∧ IsInteger after

variable {text ds : List Char} {n numerator denominator : Int}

section Integers

theorem isGrouped_iff :
    IsGrouped ds ↔
      ds ≠ [] ∧ ds.head? ≠ some '_' ∧ (ds.all fun c => c.isDigit || c == '_') = true := by
  cases ds with
  | nil => simp [IsGrouped]
  | cons first rest =>
    simp only [IsGrouped, List.cons.injEq, List.head?_cons, List.all_cons, Bool.and_eq_true,
      Bool.or_eq_true, beq_iff_eq, List.all_eq_true]
    constructor
    · rintro ⟨_, _, ⟨rfl, rfl⟩, hfirst, hrest⟩
      refine ⟨by simp, ?_, .inl hfirst, hrest⟩
      rintro hunderscore
      rw [Option.some.inj hunderscore] at hfirst
      cases hfirst
    · rintro ⟨-, hne, hfirst, hrest⟩
      have hdigit := hfirst.resolve_right fun heq => hne (congrArg some heq)
      exact ⟨first, rest, ⟨rfl, rfl⟩, hdigit, hrest⟩

theorem ne_of_mem_isGrouped {c d : Char} (hgrouped : IsGrouped ds) (hmem : c ∈ ds)
    (hdigit : d.isDigit = false) (hunderscore : d ≠ '_') : c ≠ d := by
  rintro rfl
  have hall := List.all_eq_true.mp (isGrouped_iff.mp hgrouped).2.2 c hmem
  rw [hdigit, Bool.false_or, beq_iff_eq] at hall
  exact hunderscore hall

theorem filter_isGrouped (hgrouped : IsGrouped ds) :
    ds.filter (· != '_') = ds.filter Char.isDigit := by
  refine List.filter_congr fun c hmem => ?_
  have hall := List.all_eq_true.mp (isGrouped_iff.mp hgrouped).2.2 c hmem
  rw [Bool.or_eq_true, beq_iff_eq] at hall
  rcases hall with hdigit | rfl
  · rw [hdigit, bne_iff_ne]
    rintro rfl
    cases hdigit
  · rfl

theorem readInteger?_eq_some_iff_takeSign :
    readInteger? text = some n ↔ IsGrouped (takeSign text).2 ∧
      n = if (takeSign text).1 then -(groupedValue (takeSign text).2 : Int)
        else groupedValue (takeSign text).2 := by
  unfold readInteger?
  generalize takeSign text = signed
  obtain ⟨negative, unsigned⟩ := signed
  simp only
  split
  · simp [isGrouped_iff]
  · simp [isGrouped_iff]
  · rename_i hne hunderscore
    have hhead : unsigned.head? ≠ some '_' := by
      intro hhead
      obtain ⟨rest, hrest⟩ := List.head?_eq_some_iff.mp hhead
      exact hunderscore rest hrest
    rw [Option.ite_none_right_eq_some]
    constructor
    · rintro ⟨hall, hn⟩
      have hgrouped : IsGrouped unsigned := isGrouped_iff.mpr ⟨hne, hhead, hall⟩
      rw [filter_isGrouped hgrouped] at hn
      exact ⟨hgrouped, (Option.some.inj hn).symm⟩
    · rintro ⟨hgrouped, rfl⟩
      rw [filter_isGrouped hgrouped]
      exact ⟨(isGrouped_iff.mp hgrouped).2.2, rfl⟩

theorem takeSign_of_isGrouped (hgrouped : IsGrouped ds) : takeSign ds = (false, ds) := by
  unfold takeSign
  split
  · exact absurd rfl (ne_of_mem_isGrouped hgrouped List.mem_cons_self rfl (by decide))
  · exact absurd rfl (ne_of_mem_isGrouped hgrouped List.mem_cons_self rfl (by decide))
  · rfl

theorem readInteger?_eq_some_iff : readInteger? text = some n ↔ SpellsInteger text n := by
  rw [readInteger?_eq_some_iff_takeSign]
  constructor
  · rintro ⟨hgrouped, rfl⟩
    unfold takeSign at *
    split at hgrouped
    · exact .minus hgrouped
    · exact .plus hgrouped
    · exact .plain hgrouped
  · intro hspells
    cases hspells with
    | plain hgrouped =>
      rw [takeSign_of_isGrouped hgrouped]
      exact ⟨hgrouped, rfl⟩
    | plus hgrouped => exact ⟨hgrouped, rfl⟩
    | minus hgrouped => exact ⟨hgrouped, rfl⟩

theorem ne_slash_of_spellsInteger (hspells : SpellsInteger text n) :
    ∀ c ∈ text, (c == '/') = false := by
  have hgroup {ds : List Char} (hgrouped : IsGrouped ds) : ∀ c ∈ ds, (c == '/') = false :=
    fun c hmem => beq_false_of_ne (ne_of_mem_isGrouped hgrouped hmem rfl (by decide))
  cases hspells with
  | plain hgrouped => exact hgroup hgrouped
  | plus hgrouped => exact List.forall_mem_cons.mpr ⟨rfl, hgroup hgrouped⟩
  | minus hgrouped => exact List.forall_mem_cons.mpr ⟨rfl, hgroup hgrouped⟩

theorem isGrouped_of_digits (hdigits : Text.allDigits ds = true) (hne : ds ≠ []) :
    IsGrouped ds := by
  refine isGrouped_iff.mpr ⟨hne, fun hhead => ?_, List.all_eq_true.mpr fun c hmem => ?_⟩
  · exact absurd (List.all_eq_true.mp hdigits _ (List.mem_of_head? hhead)) (by decide)
  · rw [List.all_eq_true.mp hdigits c hmem, Bool.true_or]

/-- Grouped digits without an underscore are digits. -/
theorem digits_iff_of_isGrouped (hgrouped : IsGrouped ds) :
    Text.allDigits ds = true ↔ '_' ∉ ds := by
  have hall := List.all_eq_true.mp (isGrouped_iff.mp hgrouped).2.2
  constructor
  · exact fun hdigits hmem => absurd (List.all_eq_true.mp hdigits _ hmem) (by decide)
  · refine fun hmem => List.all_eq_true.mpr fun c hc => ?_
    have hcases := hall c hc
    rw [Bool.or_eq_true, beq_iff_eq] at hcases
    exact hcases.resolve_right fun heq => hmem (heq ▸ hc)

theorem not_mem_of_digits {c : Char} (hdigits : Text.allDigits ds = true)
    (hc : c.isDigit = false) : c ∉ ds := by
  intro hmem
  exact Text.ne_of_isDigit (List.all_eq_true.mp hdigits c hmem) hc rfl

/-- Of the spellings of integers, the strict ones have no plus sign and no underscore. -/
theorem isInteger_iff :
    IsInteger text ↔ (∃ n, SpellsInteger text n) ∧ '+' ∉ text ∧ '_' ∉ text := by
  constructor
  · rintro ⟨negative, ds, rfl, hdigits, hne⟩
    have hgrouped := isGrouped_of_digits hdigits hne
    have hplus : '+' ∉ ds := not_mem_of_digits hdigits rfl
    have hunderscore : '_' ∉ ds := not_mem_of_digits hdigits rfl
    cases negative with
    | false => exact ⟨⟨_, .plain hgrouped⟩, hplus, hunderscore⟩
    | true => exact ⟨⟨_, .minus hgrouped⟩, by simp [Text.minus, hplus],
        by simp [Text.minus, hunderscore]⟩
  · rintro ⟨⟨n, hspells⟩, hplus, hunderscore⟩
    cases hspells with
    | plain hgrouped =>
      exact ⟨false, text, rfl, (digits_iff_of_isGrouped hgrouped).mpr hunderscore,
        (isGrouped_iff.mp hgrouped).1⟩
    | plus hgrouped => exact absurd List.mem_cons_self hplus
    | minus hgrouped =>
      exact ⟨true, _, rfl, (digits_iff_of_isGrouped hgrouped).mpr
        fun hmem => hunderscore (List.mem_cons_of_mem _ hmem), (isGrouped_iff.mp hgrouped).1⟩

end Integers

section Ratios

theorem readRatio?_eq_some_iff :
    readRatio? text = some (numerator, denominator) ↔
      SpellsRatio text numerator denominator := by
  constructor
  · intro hread
    unfold readRatio? at hread
    split at hread
    · cases hread
    · rename_i before after hcut
      obtain ⟨mark, hmark, rfl⟩ := Text.eq_append_of_cut_some hcut
      obtain rfl := eq_of_beq hmark
      obtain ⟨n, hn, hread⟩ := Option.bind_eq_some_iff.mp hread
      obtain ⟨d, hd, hpair⟩ := Option.map_eq_some_iff.mp hread
      obtain ⟨rfl, rfl⟩ := Prod.mk.inj hpair
      exact ⟨before, after, rfl, readInteger?_eq_some_iff.mp hn, readInteger?_eq_some_iff.mp hd⟩
  · rintro ⟨before, after, rfl, hbefore, hafter⟩
    rw [readRatio?, Text.cut_append_cons (ne_slash_of_spellsInteger hbefore) rfl]
    simp only [readInteger?_eq_some_iff.mpr hbefore, readInteger?_eq_some_iff.mpr hafter,
      Option.bind_some, Option.map_some]

/-- Of the spellings of ratios, the strict ones have no plus sign and no underscore. -/
theorem isRatio_iff :
    IsRatio text ↔ (∃ n d, SpellsRatio text n d) ∧ '+' ∉ text ∧ '_' ∉ text := by
  constructor
  · rintro ⟨before, after, rfl, hbefore, hafter⟩
    obtain ⟨⟨n, hn⟩, hplus, hunderscore⟩ := isInteger_iff.mp hbefore
    obtain ⟨⟨d, hd⟩, hplus', hunderscore'⟩ := isInteger_iff.mp hafter
    exact ⟨⟨n, d, before, after, rfl, hn, hd⟩, by simp [hplus, hplus'],
      by simp [hunderscore, hunderscore']⟩
  · rintro ⟨⟨n, d, before, after, rfl, hn, hd⟩, hplus, hunderscore⟩
    simp only [List.mem_append, List.mem_cons, not_or] at hplus hunderscore
    exact ⟨before, after, rfl, isInteger_iff.mpr ⟨⟨n, hn⟩, hplus.1, hunderscore.1⟩,
      isInteger_iff.mpr ⟨⟨d, hd⟩, hplus.2.2, hunderscore.2.2⟩⟩

end Ratios

/-! ## Both readers -/

/-- What the reader of payloads makes of a text. -/
structure ReadsPayload (text : String) : Prop where
  /-- Bytes are read from pairs whose lower-case text, with zero for every plus sign, is written
  for them. -/
  ok_iff (bytes : List UInt8) : readPayload (.string text) = .ok bytes ↔
    Text.isSignedHex text.toList = true ∧ text.toList.map Text.lowerHex = Text.hex bytes
  /-- They are written as the text in lower case if it has no plus sign. -/
  strict_iff (bytes : List UInt8) (hread : readPayload (.string text) = .ok bytes) :
    Text.IsHex text.toList ∧ text.toList.map Char.toLower = Text.hex bytes ↔ '+' ∉ text.toList
  /-- An even number of digits is always read. -/
  total (hdigits : Text.IsHex text.toList) : ∃ bytes, readPayload (.string text) = .ok bytes
  /-- Every other text is refused. -/
  refused (hnone : ∀ bytes, readPayload (.string text) ≠ .ok bytes) :
    readPayload (.string text) = refuse .hex
  /-- The same is read in slices of two bytes, wherever they cut. -/
  sliced : readPayload (.string text) = require .hex (Text.ofHexSlices? (Text.utf8 text))

/-- What the reader of exact and host numbers makes of a text. -/
structure ReadsNumber (text : String) : Prop where
  /-- A number is read from a ratio with a denominator. -/
  ok_iff (number : Number) : readNumber (.string text) = .ok number ↔
    ∃ numerator denominator : Int, SpellsRatio text.toList numerator denominator ∧
      denominator ≠ 0 ∧ number = (numerator / denominator : ℚ)
  /-- The ratio is of digits and minus signs if it has no plus sign and no underscore. -/
  strict_iff (number : Number) (hread : readNumber (.string text) = .ok number) :
    IsRatio text.toList ↔ '+' ∉ text.toList ∧ '_' ∉ text.toList
  /-- A ratio to zero is refused as a division. -/
  division_iff : readNumber (.string text) = .error (.number .divisionByZero) ↔
    ∃ numerator, SpellsRatio text.toList numerator 0
  /-- Every other text is refused. -/
  refused (hratio : ∀ numerator denominator, ¬SpellsRatio text.toList numerator denominator) :
    readNumber (.string text) = refuse .ratio

theorem readPayload_string (text : String) :
    readPayload (.string text) = require .hex (Text.ofHex? text.toList) := rfl

theorem readsPayload (text : String) : ReadsPayload text where
  ok_iff bytes := by rw [readPayload_string, require_eq_ok_iff, Text.ofHex?_eq_some_iff]
  strict_iff bytes hread := by
    rw [readPayload_string, require_eq_ok_iff, Text.ofHex?_eq_some_iff] at hread
    obtain ⟨hpairs, hlower⟩ := hread
    rw [Text.isHex_iff]
    constructor
    · exact fun hstrict => hstrict.1.2
    · intro hplus
      have hdigits := (Text.isHex_iff.mpr ⟨hpairs, hplus⟩).2
      rw [← hlower]
      exact ⟨⟨hpairs, hplus⟩, List.map_congr_left fun c hmem =>
        (Text.lowerHex_of_isHexDigit (hdigits c hmem)).symm⟩
  total hdigits := by
    have hsome := Text.isSome_ofHex? text.toList
    rw [(Text.isHex_iff.mp hdigits).1] at hsome
    obtain ⟨bytes, hbytes⟩ := Option.isSome_iff_exists.mp hsome
    exact ⟨bytes, by rw [readPayload_string, hbytes, require]⟩
  refused hnone := by
    rw [readPayload_string] at hnone ⊢
    cases hbytes : Text.ofHex? text.toList with
    | none => rfl
    | some bytes => exact absurd (require_eq_ok_iff.mpr hbytes) (hnone bytes)
  sliced := by rw [readPayload_string, Text.ofHexSlices?_utf8]

theorem readNumber_of_ratio {text : String}
    (hratio : SpellsRatio text.toList numerator denominator) :
    readNumber (.string text) = (Number.ofFraction numerator denominator).mapError .number := by
  change (require .ratio (readRatio? text.toList)).bind _ = _
  rw [readRatio?_eq_some_iff.mpr hratio]
  rfl

theorem readNumber_of_nonzero {text : String}
    (hratio : SpellsRatio text.toList numerator denominator) (hnonzero : denominator ≠ 0) :
    readNumber (.string text) = .ok (numerator / denominator : ℚ) := by
  rw [readNumber_of_ratio hratio, Number.ofFraction, if_neg hnonzero, Rat.divInt_eq_div]
  rfl

theorem readNumber_of_zero {text : String} (hratio : SpellsRatio text.toList numerator 0) :
    readNumber (.string text) = .error (.number .divisionByZero) := readNumber_of_ratio hratio

theorem readNumber_of_forall_not {text : String}
    (hratio : ∀ numerator denominator, ¬SpellsRatio text.toList numerator denominator) :
    readNumber (.string text) = refuse .ratio := by
  have hnone : readRatio? text.toList = none := Option.eq_none_iff_forall_ne_some.mpr
    fun pair hpair => hratio pair.1 pair.2 (readRatio?_eq_some_iff.mp hpair)
  change (require .ratio (readRatio? text.toList)).bind _ = _
  rw [hnone]
  rfl

/-- A text spells a ratio with a denominator, or a ratio to zero, or no ratio. -/
theorem exists_spellsRatio (text : List Char) :
    (∃ numerator denominator, SpellsRatio text numerator denominator ∧ denominator ≠ 0) ∨
      (∃ numerator, SpellsRatio text numerator 0) ∨
        ∀ numerator denominator, ¬SpellsRatio text numerator denominator := by
  by_cases hratio : ∃ numerator denominator, SpellsRatio text numerator denominator
  · obtain ⟨numerator, denominator, hratio⟩ := hratio
    by_cases hzero : denominator = 0
    · exact .inr (.inl ⟨numerator, hzero ▸ hratio⟩)
    · exact .inl ⟨numerator, denominator, hratio, hzero⟩
  · exact .inr (.inr fun numerator denominator hspells => hratio ⟨numerator, denominator, hspells⟩)

theorem readsNumber (text : String) : ReadsNumber text where
  ok_iff number := by
    constructor
    · intro hread
      rcases exists_spellsRatio text.toList with ⟨n, d, hratio, hnonzero⟩ | ⟨n, hratio⟩ | hnone
      · rw [readNumber_of_nonzero hratio hnonzero, Except.ok.injEq] at hread
        exact ⟨n, d, hratio, hnonzero, hread.symm⟩
      · rw [readNumber_of_zero hratio] at hread
        cases hread
      · rw [readNumber_of_forall_not hnone] at hread
        cases hread
    · rintro ⟨n, d, hratio, hnonzero, rfl⟩
      exact readNumber_of_nonzero hratio hnonzero
  strict_iff number hread := by
    obtain ⟨_, n, d, hjson, hratio, -⟩ := exists_readNumber_iff.mp ⟨number, hread⟩
    obtain rfl := Json.string.inj hjson
    rw [isRatio_iff]
    exact and_iff_right ⟨n, d, readRatio?_eq_some_iff.mp hratio⟩
  division_iff := by
    constructor
    · intro hread
      rcases exists_spellsRatio text.toList with ⟨n, d, hratio, hnonzero⟩ | ⟨n, hratio⟩ | hnone
      · rw [readNumber_of_nonzero hratio hnonzero] at hread
        cases hread
      · exact ⟨n, hratio⟩
      · rw [readNumber_of_forall_not hnone] at hread
        cases hread
    · rintro ⟨n, hratio⟩
      exact readNumber_of_zero hratio
  refused := readNumber_of_forall_not

/-- The readers of payloads and of exact and host numbers give a value on exactly the texts that
spell one and refuse every other text, and the texts that they take beyond hexadecimal digits and
beyond ratios of digits are those with a plus sign or, between the digits of a ratio, an
underscore. -/
theorem leafTexts_read (text : String) : ReadsPayload text ∧ ReadsNumber text :=
  ⟨readsPayload text, readsNumber text⟩

/-- Such texts are taken, and no digits are what they spell. -/
theorem leafTexts_beyond_digits :
    readPayload (.string "+f") = .ok [15] ∧ ¬Text.IsHex "+f".toList ∧
      readNumber (.string "+1_0/2") = .ok (5 : ℚ) ∧ ¬IsRatio "+1_0/2".toList := by
  refine ⟨by decide +kernel, fun hhex => ?_, by decide +kernel, fun hratio => ?_⟩
  · exact absurd (hhex.2 '+' (by decide)) (by decide)
  · exact absurd (by decide : '+' ∈ "+1_0/2".toList) (isRatio_iff.mp hratio).2.1

end LedgerValue.Canonical

import LedgerValue.Proofs.Text.Utf8
import LedgerValue.Text.Hex

/-!
# What spells bytes in hexadecimal

The reader of hexadecimal bytes takes pairs of digits of either case, and a plus sign for the first
digit of a pair as well. With every plus sign written as zero, what it takes is the lower-case text
of the bytes that it gives (`ofHex?_eq_some_iff`), so that texts of digits alone are told apart by
having no plus sign (`isHex_iff`). Cut into pairs of bytes in place of pairs of characters, a text
is read the same, also where a cut goes through a character (`ofHexSlices?_utf8`).
-/

namespace LedgerValue.Text

/-- The character is a hexadecimal digit of either case. -/
def isHexDigit (c : Char) : Bool :=
  c.isDigit || ('a' ≤ c && c ≤ 'f') || ('A' ≤ c && c ≤ 'F')

/-- An even number of hexadecimal digits. -/
def IsHex (text : List Char) : Prop :=
  text.length % 2 = 0 ∧ ∀ c ∈ text, isHexDigit c = true

/-- Pairs of a hexadecimal digit or a plus sign and a hexadecimal digit. -/
def isSignedHex : List Char → Bool
  | [] => true
  | [_] => false
  | high :: low :: rest => (isHexDigit high || high == '+') && isHexDigit low && isSignedHex rest

/-- The digit in lower case, and zero for a plus sign. -/
def lowerHex (c : Char) : Char := if c = '+' then '0' else c.toLower

variable {c high low : Char} {n m : Nat} {byte : UInt8} {bytes : List UInt8} {text : List Char}

@[simp]
theorem isSome_hexValue? (c : Char) : (hexValue? c).isSome = isHexDigit c := by
  unfold hexValue? isHexDigit
  split
  · rename_i hdigit
    simp [hdigit]
  · split
    · rename_i hlower
      simp [hlower]
    · rename_i hdigit hlower
      split <;> simp_all

theorem toNat_lt_of_isHexDigit (hdigit : isHexDigit c = true) : c.toNat < 0x80 := by
  simp only [isHexDigit, Bool.or_eq_true, Bool.and_eq_true, decide_eq_true_eq] at hdigit
  rcases hdigit with (hdecimal | ⟨-, hlower⟩) | ⟨-, hupper⟩
  · exact Nat.lt_of_le_of_lt (Char.isDigit_iff_toNat.mp hdecimal).2 (by decide)
  · exact Nat.lt_of_le_of_lt hlower (by decide)
  · exact Nat.lt_of_le_of_lt hupper (by decide)

/-- A digit of either case stands for the number whose digit it is in lower case. -/
theorem hexDigit_of_hexValue? (hvalue : hexValue? c = some n) :
    n < 16 ∧ hexDigit n = c.toLower := by
  have htable : ∀ code < 0x80, (hexValue? (Char.ofNat code)).all (fun n =>
      n < 16 && hexDigit n == (Char.ofNat code).toLower) = true := by decide +kernel
  have hdigit : isHexDigit c = true := by rw [← isSome_hexValue?, hvalue, Option.isSome_some]
  have hentry := htable c.toNat (toNat_lt_of_isHexDigit hdigit)
  rw [Char.ofNat_toNat, hvalue] at hentry
  simpa using hentry

theorem hexValue?_eq_some_iff :
    hexValue? c = some n ↔ isHexDigit c = true ∧ n < 16 ∧ hexDigit n = c.toLower := by
  constructor
  · intro hvalue
    exact ⟨by rw [← isSome_hexValue?, hvalue, Option.isSome_some], hexDigit_of_hexValue? hvalue⟩
  · rintro ⟨hdigit, hn, hlower⟩
    rw [← isSome_hexValue?] at hdigit
    obtain ⟨m, hm⟩ := Option.isSome_iff_exists.mp hdigit
    obtain ⟨hlt, hdigits⟩ := hexDigit_of_hexValue? hm
    have hsame := hexValue?_hexDigit hlt
    rw [hdigits, ← hlower, hexValue?_hexDigit hn] at hsame
    rw [hm, hsame]

theorem ne_plus_of_isHexDigit (hdigit : isHexDigit c = true) : c ≠ '+' := by
  rintro rfl
  exact absurd hdigit (by decide)

theorem lowerHex_of_isHexDigit (hdigit : isHexDigit c = true) : lowerHex c = c.toLower :=
  if_neg (ne_plus_of_isHexDigit hdigit)

theorem hexDigit_injective (hn : n < 16) (hm : m < 16) (hsame : hexDigit n = hexDigit m) :
    n = m := by
  have hvalue := hexValue?_hexDigit hn
  rw [hsame, hexValue?_hexDigit hm] at hvalue
  exact (Option.some.inj hvalue).symm

/-- The first character of a pair stands for a number as a digit, or for zero as a plus sign. -/
theorem stands_iff :
    high = '+' ∧ n = 0 ∨ high ≠ '+' ∧ hexValue? high = some n ↔
      (isHexDigit high || high == '+') = true ∧ n < 16 ∧ hexDigit n = lowerHex high := by
  by_cases hplus : high = '+'
  · subst hplus
    have hzero : lowerHex '+' = hexDigit 0 := rfl
    constructor
    · rintro (⟨-, rfl⟩ | ⟨hne, -⟩)
      · exact ⟨rfl, by decide, hzero.symm⟩
      · exact absurd rfl hne
    · rintro ⟨-, hn, hdigit⟩
      exact .inl ⟨rfl, hexDigit_injective hn (by decide) (hdigit.trans hzero)⟩
  · rw [hexValue?_eq_some_iff, lowerHex, if_neg hplus]
    simp [hplus]

theorem readHexByte?_eq_some_iff_values :
    readHexByte? high low = some byte ↔
      ∃ sixteens units, (high = '+' ∧ sixteens = 0 ∨ high ≠ '+' ∧ hexValue? high = some sixteens) ∧
        hexValue? low = some units ∧ byte = UInt8.ofNat (16 * sixteens + units) := by
  rw [readHexByte?, Option.bind_eq_some_iff]
  by_cases hplus : high = '+'
  · simp [hplus, eq_comm]
  · simp only [hplus, if_false, false_and, false_or, ne_eq, not_false_eq_true, true_and,
      Option.map_eq_some_iff]
    constructor
    · rintro ⟨units, hunits, sixteens, hsixteens, rfl⟩
      exact ⟨sixteens, units, hsixteens, hunits, rfl⟩
    · rintro ⟨sixteens, units, hsixteens, hunits, rfl⟩
      exact ⟨units, hunits, sixteens, hsixteens, rfl⟩

theorem hexByte_ofNat (hn : n < 16) (hm : m < 16) :
    hexByte (UInt8.ofNat (16 * n + m)) = [hexDigit n, hexDigit m] := by
  have hbyte : (UInt8.ofNat (16 * n + m)).toNat = 16 * n + m :=
    UInt8.toNat_ofNat_of_lt' (by simp only [UInt8.size]; omega)
  have hquotient : (16 * n + m) / 16 = n := by omega
  have hremainder : (16 * n + m) % 16 = m := by omega
  rw [hexByte, hbyte, hquotient, hremainder]

/-- What spells a byte has its lower-case digits, up to a plus sign for the first one. -/
theorem readHexByte?_eq_some_iff :
    readHexByte? high low = some byte ↔
      (isHexDigit high || high == '+') = true ∧ isHexDigit low = true ∧
        [lowerHex high, lowerHex low] = hexByte byte := by
  simp only [readHexByte?_eq_some_iff_values, stands_iff]
  simp only [hexValue?_eq_some_iff]
  constructor
  · rintro ⟨sixteens, units, ⟨hhigh, hsixteens, hfirst⟩, ⟨hlow, hunits, hsecond⟩, rfl⟩
    rw [hexByte_ofNat hsixteens hunits, hfirst, hsecond, lowerHex_of_isHexDigit hlow]
    exact ⟨hhigh, hlow, rfl⟩
  · rintro ⟨hhigh, hlow, hdigits⟩
    have hbyte := byte.toNat_lt
    obtain ⟨hfirst, hsecond⟩ : lowerHex high = hexDigit (byte.toNat / 16) ∧
        lowerHex low = hexDigit (byte.toNat % 16) := by simpa [hexByte] using hdigits
    rw [lowerHex_of_isHexDigit hlow] at hsecond
    refine ⟨byte.toNat / 16, byte.toNat % 16, ⟨hhigh, by omega, hfirst.symm⟩,
      ⟨hlow, by omega, hsecond.symm⟩, ?_⟩
    rw [Nat.div_add_mod, UInt8.ofNat_toNat]

/-- What spells bytes is pairs whose lower-case text, with zero for every plus sign, is written for
the bytes. -/
theorem ofHex?_eq_some_iff :
    ofHex? text = some bytes ↔ isSignedHex text = true ∧ text.map lowerHex = hex bytes := by
  fun_induction ofHex? text generalizing bytes with
  | case1 =>
    cases bytes with
    | nil => simp [isSignedHex, hex]
    | cons byte rest => simp [isSignedHex, hex, hexByte]
  | case2 => simp [isSignedHex]
  | case3 high low rest ih =>
    simp only [Option.bind_eq_some_iff, Option.map_eq_some_iff, readHexByte?_eq_some_iff, ih,
      isSignedHex, Bool.and_eq_true]
    constructor
    · rintro ⟨byte, ⟨hhigh, hlow, hdigits⟩, others, ⟨hpairs, hothers⟩, rfl⟩
      refine ⟨⟨⟨hhigh, hlow⟩, hpairs⟩, ?_⟩
      change [lowerHex high, lowerHex low] ++ rest.map lowerHex = hexByte byte ++ hex others
      rw [hdigits, hothers]
    · rintro ⟨⟨⟨hhigh, hlow⟩, hpairs⟩, htext⟩
      cases bytes with
      | nil => simp [hex] at htext
      | cons byte others =>
        obtain ⟨hdigits, hothers⟩ := List.append_inj
          (show [lowerHex high, lowerHex low] ++ rest.map lowerHex = hexByte byte ++ hex others from
            htext) rfl
        exact ⟨byte, ⟨hhigh, hlow, hdigits⟩, others, ⟨hpairs, hothers⟩, rfl⟩

theorem isSome_readHexByte? :
    (readHexByte? high low).isSome = ((isHexDigit high || high == '+') && isHexDigit low) := by
  rw [readHexByte?, ← isSome_hexValue? low, ← isSome_hexValue? high]
  cases hexValue? low with
  | none => simp
  | some units => by_cases hplus : high = '+' <;> simp [hplus]

/-- Every text of such pairs spells bytes. -/
@[simp]
theorem isSome_ofHex? (text : List Char) : (ofHex? text).isSome = isSignedHex text := by
  fun_induction ofHex? text with
  | case1 => rfl
  | case2 => rfl
  | case3 high low rest ih =>
    rw [isSignedHex, ← isSome_readHexByte?, ← ih]
    cases readHexByte? high low <;> simp

/-- Pairs without a plus sign are digits throughout. -/
theorem isHex_iff : IsHex text ↔ isSignedHex text = true ∧ '+' ∉ text := by
  fun_induction isSignedHex text with
  | case1 => simp [IsHex]
  | case2 c => simp [IsHex]
  | case3 high low rest ih =>
    have hplus : isHexDigit '+' = false := rfl
    have hlength : (high :: low :: rest).length % 2 = rest.length % 2 := by
      simp only [List.length_cons]
      omega
    have hdigits : (∀ c ∈ high :: low :: rest, isHexDigit c = true) ↔
        (isHexDigit high = true ∧ isHexDigit low = true) ∧ ∀ c ∈ rest, isHexDigit c = true := by
      simp only [List.forall_mem_cons, and_assoc]
    rw [IsHex, hlength, hdigits, and_left_comm, ← IsHex, ih]
    simp only [Bool.and_eq_true, Bool.or_eq_true, beq_iff_eq, List.mem_cons, not_or]
    constructor
    · rintro ⟨⟨hhigh, hlow⟩, hpairs, hrest⟩
      exact ⟨⟨⟨.inl hhigh, hlow⟩, hpairs⟩, (ne_plus_of_isHexDigit hhigh).symm,
        (ne_plus_of_isHexDigit hlow).symm, hrest⟩
    · rintro ⟨⟨⟨hhigh, hlow⟩, hpairs⟩, hne, -, hrest⟩
      exact ⟨⟨hhigh.resolve_right (Ne.symm hne), hlow⟩, hpairs, hrest⟩

/-! ## Slices of two bytes -/

/-- The byte of some hexadecimal digits, at least one and no more than a byte holds. -/
def byteOfDigits? (ds : List Char) : Option UInt8 :=
  let n := ds.foldl (fun n c => 16 * n + (hexValue? c).getD 0) 0
  if ds ≠ [] ∧ ds.all isHexDigit = true ∧ n < 0x100 then some (UInt8.ofNat n) else none

/-- The byte that a slice spells, with a plus sign in front or without. -/
def readSlice? : List Char → Option UInt8
  | '+' :: ds => byteOfDigits? ds
  | ds => byteOfDigits? ds

/-- The bytes that a text spells, cut after every second byte. There is no slice where a cut goes
through a character. -/
def ofHexSlices? : List UInt8 → Option (List UInt8)
  | [] => some []
  | [_] => none
  | first :: second :: rest =>
    ((ofUtf8? [first, second]).bind fun slice => readSlice? slice.toList).bind fun byte =>
      (ofHexSlices? rest).map (byte :: ·)

theorem byteOfDigits?_of_hexValue? (hlow : hexValue? low = some m) :
    byteOfDigits? [low] = some (UInt8.ofNat m) := by
  obtain ⟨hdigit, hm, -⟩ := hexValue?_eq_some_iff.mp hlow
  have hfits : m < 0x100 := by omega
  simp [byteOfDigits?, hdigit, hlow, hfits]

theorem byteOfDigits?_pair (hhigh : hexValue? high = some n) (hlow : hexValue? low = some m) :
    byteOfDigits? [high, low] = some (UInt8.ofNat (16 * n + m)) := by
  obtain ⟨hfirst, hn, -⟩ := hexValue?_eq_some_iff.mp hhigh
  obtain ⟨hsecond, hm, -⟩ := hexValue?_eq_some_iff.mp hlow
  have hfits : 16 * n + m < 0x100 := by omega
  simp [byteOfDigits?, hfirst, hsecond, hhigh, hlow, hfits]

theorem isHexDigit_of_byteOfDigits? {ds : List Char} (hbyte : byteOfDigits? ds = some byte) :
    ∀ c ∈ ds, isHexDigit c = true := by
  simp only [byteOfDigits?, Option.ite_none_right_eq_some] at hbyte
  exact List.all_eq_true.mp hbyte.1.2.1

theorem byteOfDigits?_eq_none {ds : List Char} (hmem : c ∈ ds) (hc : hexValue? c = none) :
    byteOfDigits? ds = none := by
  refine Option.eq_none_iff_forall_ne_some.mpr fun byte hbyte => ?_
  have hdigit := isHexDigit_of_byteOfDigits? hbyte c hmem
  rw [← isSome_hexValue?, hc] at hdigit
  cases hdigit

theorem readSlice?_pair (high low : Char) : readSlice? [high, low] = readHexByte? high low := by
  by_cases hplus : high = '+'
  · subst hplus
    change byteOfDigits? [low] = (hexValue? low).bind fun units => some (UInt8.ofNat units)
    cases hlow : hexValue? low with
    | none => exact byteOfDigits?_eq_none List.mem_cons_self hlow
    | some units => exact byteOfDigits?_of_hexValue? hlow
  · have hslice : readSlice? [high, low] = byteOfDigits? [high, low] := by
      unfold readSlice?
      split
      · rename_i heq
        exact absurd (List.cons.inj heq).1 hplus
      · rfl
    rw [hslice, readHexByte?]
    simp only [hplus, if_false]
    cases hlow : hexValue? low with
    | none => exact byteOfDigits?_eq_none (by simp) hlow
    | some units =>
      cases hhigh : hexValue? high with
      | none => exact byteOfDigits?_eq_none List.mem_cons_self hhigh
      | some sixteens => exact byteOfDigits?_pair hhigh hlow

/-- The first byte of a character past ASCII is no ASCII either. -/
theorem exists_utf8EncodeChar_of_le (hc : 0x80 ≤ c.toNat) :
    ∃ byte rest, String.utf8EncodeChar c = byte :: rest ∧ 0x80 ≤ byte.toNat := by
  have hbyte {n : Nat} (hlow : 0x80 ≤ n) (hhigh : n < 0x100) : 0x80 ≤ (UInt8.ofNat n).toNat := by
    rwa [UInt8.toNat_ofNat_of_lt' (by simpa [UInt8.size] using hhigh)]
  have hlong : ¬c.val.toNat ≤ 0x7F := Nat.not_le.mpr hc
  unfold String.utf8EncodeChar
  simp only [hlong, if_false]
  split
  · exact ⟨_, _, rfl, hbyte (by omega) (by omega)⟩
  · split
    · exact ⟨_, _, rfl, hbyte (by omega) (by omega)⟩
    · exact ⟨_, _, rfl, hbyte (by omega) (by omega)⟩

theorem isAscii_of_byteOfDigits? {ds : List Char} (hbyte : byteOfDigits? ds = some byte) :
    ∀ c ∈ ds, c.toNat < 0x80 :=
  fun c hmem => toNat_lt_of_isHexDigit (isHexDigit_of_byteOfDigits? hbyte c hmem)

theorem isAscii_of_readSlice? {slice : List Char} (hbyte : readSlice? slice = some byte) :
    ∀ c ∈ slice, c.toNat < 0x80 := by
  unfold readSlice? at hbyte
  split at hbyte
  · exact List.forall_mem_cons.mpr ⟨by decide, isAscii_of_byteOfDigits? hbyte⟩
  · exact isAscii_of_byteOfDigits? hbyte

/-- A slice that spells a byte holds two characters of one byte each. -/
theorem isAscii_of_slice {first second : UInt8}
    (hbyte : ((ofUtf8? [first, second]).bind fun slice => readSlice? slice.toList) = some byte) :
    first.toNat < 0x80 ∧ second.toNat < 0x80 := by
  obtain ⟨slice, hslice, hread⟩ := Option.bind_eq_some_iff.mp hbyte
  have hascii := isAscii_of_readSlice? hread
  have hbytes := utf8_of_ofUtf8? hslice
  rw [utf8_eq_flatMap, flatMap_utf8EncodeChar_of_ascii hascii] at hbytes
  have hall : ∀ byte ∈ [first, second], byte.toNat < 0x80 := by
    rw [← hbytes]
    intro byte hmem
    obtain ⟨c, hc, rfl⟩ := List.mem_map.mp hmem
    have hlt := hascii c hc
    rwa [UInt8.toNat_ofNat_of_lt' (by simp only [UInt8.size]; omega)]
  exact ⟨hall first (by simp), hall second (by simp)⟩

theorem slice_pair (hhigh : high.toNat < 0x80) (hlow : low.toNat < 0x80) :
    ((ofUtf8? [UInt8.ofNat high.toNat, UInt8.ofNat low.toNat]).bind fun slice =>
      readSlice? slice.toList) = readHexByte? high low := by
  have hbytes : utf8 (String.ofList [high, low]) =
      [UInt8.ofNat high.toNat, UInt8.ofNat low.toNat] := by
    rw [utf8_eq_flatMap, String.toList_ofList,
      flatMap_utf8EncodeChar_of_ascii (by simp [hhigh, hlow])]
    rfl
  rw [← hbytes, ofUtf8?_utf8, Option.bind_some, String.toList_ofList, readSlice?_pair]

theorem ofHexSlices?_of_le {first : UInt8} (hfirst : 0x80 ≤ first.toNat) (rest : List UInt8) :
    ofHexSlices? (first :: rest) = none := by
  cases rest with
  | nil => rfl
  | cons second rest =>
    rw [ofHexSlices?, Option.bind_eq_none_iff]
    intro byte hbyte
    have hascii := (isAscii_of_slice hbyte).1
    omega

theorem isAscii_of_readHexByte? (hbyte : readHexByte? high low = some byte) :
    high.toNat < 0x80 ∧ low.toNat < 0x80 := by
  rw [← readSlice?_pair] at hbyte
  have hascii := isAscii_of_readSlice? hbyte
  exact ⟨hascii high (by simp), hascii low (by simp)⟩

/-- Cutting the bytes of a text gives what cutting its characters gives. -/
theorem ofHexSlices?_utf8 (text : String) : ofHexSlices? (utf8 text) = ofHex? text.toList := by
  rw [utf8_eq_flatMap]
  generalize text.toList = chars
  fun_induction ofHex? chars with
  | case1 => rfl
  | case2 c =>
    rw [List.flatMap_singleton]
    by_cases hc : c.toNat < 0x80
    · rw [utf8EncodeChar_of_lt hc]
      rfl
    · obtain ⟨first, rest, hbytes, hfirst⟩ := exists_utf8EncodeChar_of_le (Nat.not_lt.mp hc)
      rw [hbytes, ofHexSlices?_of_le hfirst]
  | case3 high low rest ih =>
    rw [List.flatMap_cons, List.flatMap_cons]
    by_cases hhigh : high.toNat < 0x80
    · rw [utf8EncodeChar_of_lt hhigh]
      by_cases hlow : low.toNat < 0x80
      · rw [utf8EncodeChar_of_lt hlow]
        simp only [List.cons_append, List.nil_append, ofHexSlices?, slice_pair hhigh hlow, ih]
      · -- The first slice ends within the second character.
        obtain ⟨first, others, hbytes, hfirst⟩ := exists_utf8EncodeChar_of_le (Nat.not_lt.mp hlow)
        have hnone : readHexByte? high low = none := Option.eq_none_iff_forall_ne_some.mpr
          fun byte hbyte => hlow (isAscii_of_readHexByte? hbyte).2
        rw [hbytes, hnone, Option.bind_none]
        simp only [List.cons_append, List.nil_append, ofHexSlices?, Option.bind_eq_none_iff]
        intro byte hbyte
        have hascii := (isAscii_of_slice hbyte).2
        omega
    · obtain ⟨first, others, hbytes, hfirst⟩ := exists_utf8EncodeChar_of_le (Nat.not_lt.mp hhigh)
      have hnone : readHexByte? high low = none := Option.eq_none_iff_forall_ne_some.mpr
        fun byte hbyte => hhigh (isAscii_of_readHexByte? hbyte).1
      rw [hbytes, hnone, Option.bind_none, List.cons_append, ofHexSlices?_of_le hfirst]

end LedgerValue.Text

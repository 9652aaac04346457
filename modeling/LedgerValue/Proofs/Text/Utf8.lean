import LedgerValue.Text.Utf8

/-!
# The bytes of UTF-8

A character takes one byte or more, and one exactly in ASCII texts throughout
(`utf8ByteSize_of_ascii`). Strings in the order of their code points are in the order of their
bytes. Main statements: the bytes determine the string (`utf8_injective`) and its order
(`utf8_lt_utf8_iff`).
-/

namespace LedgerValue.Text

theorem utf8_injective {text other : String} (hbytes : utf8 text = utf8 other) : text = other := by
  refine Option.some.inj ?_
  rw [← ofUtf8?_utf8, hbytes, ofUtf8?_utf8]

theorem utf8_eq_flatMap (text : String) :
    utf8 text = text.toList.flatMap String.utf8EncodeChar := by
  have hbytes : text.toByteArray = text.toList.utf8Encode := by
    rw [← String.toByteArray_ofList, String.ofList_toList]
  rw [utf8, String.toUTF8_eq_toByteArray, hbytes, List.utf8Encode, List.data_toByteArray]

theorem length_toList_le (text : String) : text.toList.length ≤ text.utf8ByteSize := by
  have hbytes : text.utf8ByteSize = (utf8 text).length := rfl
  rw [hbytes, utf8_eq_flatMap]
  induction text.toList with
  | nil => exact Nat.le_refl 0
  | cons c rest ih =>
    have hbyte : 0 < (String.utf8EncodeChar c).length :=
      List.length_pos_iff.mpr String.utf8EncodeChar_ne_nil
    rw [List.flatMap_cons, List.length_append, List.length_cons]
    omega

theorem utf8EncodeChar_of_lt {c : Char} (hc : c.toNat < 0x80) :
    String.utf8EncodeChar c = [UInt8.ofNat c.toNat] :=
  if_pos (Nat.le_of_lt_succ hc)

theorem flatMap_utf8EncodeChar_of_ascii {text : List Char}
    (hascii : ∀ c ∈ text, c.toNat < 0x80) :
    text.flatMap String.utf8EncodeChar = text.map fun c => UInt8.ofNat c.toNat := by
  induction text with
  | nil => rfl
  | cons c rest ih =>
    obtain ⟨hc, hrest⟩ := List.forall_mem_cons.mp hascii
    rw [List.flatMap_cons, utf8EncodeChar_of_lt hc, ih hrest]
    rfl

/-- A text of ASCII has as many bytes as characters. -/
theorem utf8ByteSize_of_ascii {text : String} (hascii : ∀ c ∈ text.toList, c.toNat < 0x80) :
    text.utf8ByteSize = text.length := by
  have hbytes : text.utf8ByteSize = (utf8 text).length := rfl
  rw [hbytes, utf8_eq_flatMap, flatMap_utf8EncodeChar_of_ascii hascii, List.length_map,
    String.length_toList]

theorem toNat_val_lt (c : Char) : c.val.toNat < 0x110000 := by
  rcases c.valid with hlow | hhigh
  · exact Nat.lt_trans hlow (by decide)
  · exact hhigh.2

theorem leadingByte_mod {n : Nat} (hn : n < 0x110000) :
    (n / 0x40000 % 8 + 0xF0) % Nat.pow 2 8 = n / 0x40000 + 0xF0 := by
  change _ % 256 = _
  omega

theorem trailingByte_mod (n : Nat) : (n % 64 + 0x80) % Nat.pow 2 8 = n % 64 + 0x80 :=
  Nat.mod_eq_of_lt (show _ < 256 by omega)

/-- The bytes of a lower code point come first, whatever follows them. -/
theorem utf8EncodeChar_append_lt {c d : Char} (hlt : c < d) (rest others : List UInt8) :
    String.utf8EncodeChar c ++ rest < String.utf8EncodeChar d ++ others := by
  have hvalue : c.val.toNat < d.val.toNat := hlt
  have hbound := toNat_val_lt d
  unfold String.utf8EncodeChar
  generalize c.val.toNat = m at *
  generalize d.val.toNat = n at *
  dsimp only
  split <;> split <;> (try split) <;> (try split) <;> (try split) <;> (try split) <;>
    simp only [List.cons_append, List.nil_append, List.cons_lt_cons_iff, UInt8.lt_iff_toNat_lt,
      ← UInt8.toNat_inj, UInt8.toNat_ofNat']
  -- With four bytes on both sides the remainders have to go before the bytes can be compared.
  case isFalse.isFalse.isFalse.isFalse.isFalse.isFalse =>
    have hlead := leadingByte_mod hbound
    have hlead' := leadingByte_mod (Nat.lt_trans hvalue hbound)
    have htrail := trailingByte_mod
    simp only [Nat.pow_eq] at hlead hlead' htrail
    simp only [hlead, hlead', htrail, Nat.add_lt_add_iff_right, Nat.add_right_cancel_iff]
    omega
  all_goals omega

theorem flatMap_utf8EncodeChar_lt {chars others : List Char} (hlt : chars < others) :
    chars.flatMap String.utf8EncodeChar < others.flatMap String.utf8EncodeChar := by
  induction hlt with
  | nil =>
    rename_i c rest
    rw [List.flatMap_nil, List.flatMap_cons]
    have hne : String.utf8EncodeChar c ≠ [] := String.utf8EncodeChar_ne_nil
    obtain ⟨byte, bytes, hbytes⟩ := List.exists_cons_of_ne_nil hne
    rw [hbytes]
    exact List.Lex.nil
  | rel hhead =>
    rw [List.flatMap_cons, List.flatMap_cons]
    exact utf8EncodeChar_append_lt hhead _ _
  | cons _ ih =>
    rw [List.flatMap_cons, List.flatMap_cons]
    exact List.append_left_lt ih

@[simp]
theorem utf8_lt_utf8_iff {text other : String} : utf8 text < utf8 other ↔ text < other := by
  have hmono {text other : String} (hlt : text < other) : utf8 text < utf8 other := by
    rw [utf8_eq_flatMap, utf8_eq_flatMap]
    exact flatMap_utf8EncodeChar_lt hlt
  refine ⟨fun hbytes => ?_, hmono⟩
  by_cases heq : text = other
  · rw [heq] at hbytes
    exact absurd hbytes (List.lt_irrefl _)
  · refine String.not_le.mp fun hle => ?_
    exact List.lt_asymm hbytes (hmono (Std.lt_of_le_of_ne hle (Ne.symm heq)))

end LedgerValue.Text

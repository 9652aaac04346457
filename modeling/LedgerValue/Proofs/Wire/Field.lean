import LedgerValue.Wire.Field

/-!
# Fields are read back

A field is read back from its bytes whatever follows them, if its payload is a word or as many bytes
as a word can count (`readOne?_write_append`), and refused otherwise
(`readOne?_write_append_eq_none`). So a message is taken apart into the fields that it was put
together from exactly when all of their payloads fit (`read?_writeAll`, `read?_writeAll_eq_none`).
-/

namespace LedgerValue.Wire

namespace Varint

theorem length_groups_pos (count n : Nat) : 0 < (groups (count + 1) n).length := by
  rw [groups]
  split <;> simp

theorem length_groups_le (count n : Nat) : (groups count n).length ≤ count := by
  induction count generalizing n with
  | zero => simp [groups]
  | succ count ih =>
    rw [groups]
    split
    · simp
    · simpa using ih (n / 128)

theorem length_write_pos (n : Nat) : 0 < (write n).length := length_groups_pos 9 n

theorem length_write_le (n : Nat) : (write n).length ≤ maxBytes := length_groups_le maxBytes n

/-- The last group of a number that is too large is more than the one bit that it may hold. -/
theorem readGroups?_groups_append_eq_none {count n : Nat} (hlarge : 2 * Nat.pow 128 count ≤ n)
    (rest : List UInt8) : readGroups? (count + 1) (groups (count + 1) n ++ rest) = none := by
  induction count generalizing n with
  | zero =>
    have hn : 2 ≤ n := by simpa using hlarge
    rw [groups]
    split
    · rename_i hsmall
      have hbyte : (UInt8.ofNat n).toNat = n := by simp; omega
      simp [readGroups?, hbyte, hsmall, show 1 < n by omega]
    · have hbyte : (UInt8.ofNat (n % 128 + 128)).toNat = n % 128 + 128 := by simp; omega
      rw [List.cons_append, readGroups?, hbyte, if_neg (by omega)]
      rfl
  | succ count ih =>
    have hhigh : 2 * Nat.pow 128 count ≤ n / 128 := by
      rw [Nat.le_div_iff_mul_le (by decide)]
      calc
        2 * Nat.pow 128 count * 128 = 2 * Nat.pow 128 (count + 1) := Nat.mul_assoc _ _ _
        _ ≤ n := hlarge
    have hpositive : 0 < Nat.pow 128 count := Nat.pow_pos (by decide)
    have hbyte : (UInt8.ofNat (n % 128 + 128)).toNat = n % 128 + 128 := by simp; omega
    rw [groups, if_neg (by omega), List.cons_append, readGroups?, hbyte, if_neg (by omega),
      ih hhigh]
    rfl

theorem read?_write_append_eq_none {n : Nat} (hn : ¬Word.IsUnsigned n) (rest : List UInt8) :
    read? (write n ++ rest) = none :=
  readGroups?_groups_append_eq_none (Nat.not_lt.mp hn) rest

end Varint

/-- A word holds the payload, or counts its bytes. -/
def Payload.Fits : Payload → Prop
  | word value => Word.IsUnsigned value
  | bytes content => Word.IsUnsigned content.length
  | other => False

namespace Field

variable {depth : Nat} {field : Field} {fields : List Field} {rest : List UInt8}

/-- The field has a number that fields can have, and holds a word or bytes. -/
structure IsWritable (field : Field) : Prop where
  /-- No field has the number zero. -/
  positive : 0 < field.number
  /-- The number and the layout take 32 bits. -/
  bounded : field.number < 0x20000000
  /-- Nothing else can be written. -/
  payload : field.payload ≠ .other

variable {number : Nat}

theorem readKey?_write {code : Nat} {layout : Layout} (hpositive : 0 < number)
    (hbounded : number < 0x20000000) (hcode : code < 8)
    (hlayout : Layout.ofCode? code = some layout) :
    readKey? (Varint.write (8 * number + code) ++ rest) = some ((number, layout), rest) := by
  have hword : Word.IsUnsigned (8 * number + code) := by
    rw [Word.IsUnsigned]
    omega
  have hkey : 8 * number + code < 0x100000000 ∧ 8 ≤ 8 * number + code := by omega
  have hmod : (8 * number + code) % 8 = code := by omega
  have hdiv : (8 * number + code) / 8 = number := by omega
  simp only [readKey?, Varint.read?_write_append hword, Option.bind_some, hmod, hdiv, hlayout,
    Option.map_some, decide_eq_true hkey.1, decide_eq_true hkey.2, Bool.and_self, if_true]

/-- A word is read after the key of its field. -/
theorem readOne?_word (hpositive : 0 < number) (hbounded : number < 0x20000000) :
    readOne? depth (Varint.write (8 * number) ++ rest) =
      (Varint.read? rest).map fun (value, left) => (⟨number, .word value⟩, left) := by
  have hkey : readKey? (Varint.write (8 * number) ++ rest) = some ((number, .word), rest) :=
    readKey?_write hpositive hbounded (show 0 < 8 by decide) rfl
  rw [readOne?, hkey, Option.bind_some]

/-- Bytes are read after the key of their field. -/
theorem readOne?_bytes (hpositive : 0 < number) (hbounded : number < 0x20000000) :
    readOne? depth (Varint.write (8 * number + 2) ++ rest) =
      (readBytes? rest).map fun (content, left) => (⟨number, .bytes content⟩, left) := by
  rw [readOne?, readKey?_write hpositive hbounded (by decide) rfl, Option.bind_some]

theorem readBytes?_write {content : List UInt8} (hcontent : Word.IsUnsigned content.length) :
    readBytes? (Varint.write content.length ++ (content ++ rest)) = some (content, rest) := by
  simp only [readBytes?, Varint.read?_write_append hcontent, Option.bind_some]
  rw [if_pos (by rw [List.length_append]; omega), List.take_left, List.drop_left]

theorem readBytes?_write_eq_none {content : List UInt8}
    (hcontent : ¬Word.IsUnsigned content.length) :
    readBytes? (Varint.write content.length ++ (content ++ rest)) = none := by
  simp only [readBytes?, Varint.read?_write_append_eq_none hcontent, Option.bind_none]

theorem readOne?_write_append (hfield : field.IsWritable) (hfits : field.payload.Fits) :
    readOne? depth (field.write ++ rest) = some (field, rest) := by
  obtain ⟨number, payload⟩ := field
  cases payload with
  | word value =>
    rw [write, List.append_assoc, readOne?_word hfield.positive hfield.bounded,
      Varint.read?_write_append hfits, Option.map_some]
  | bytes content =>
    rw [write, List.append_assoc, List.append_assoc,
      readOne?_bytes hfield.positive hfield.bounded, readBytes?_write hfits, Option.map_some]
  | other => exact absurd rfl hfield.payload

theorem readOne?_write_append_eq_none (hfield : field.IsWritable) (hlarge : ¬field.payload.Fits) :
    readOne? depth (field.write ++ rest) = none := by
  obtain ⟨number, payload⟩ := field
  cases payload with
  | word value =>
    rw [write, List.append_assoc, readOne?_word hfield.positive hfield.bounded,
      Varint.read?_write_append_eq_none hlarge, Option.map_none]
  | bytes content =>
    rw [write, List.append_assoc, List.append_assoc,
      readOne?_bytes hfield.positive hfield.bounded, readBytes?_write_eq_none hlarge,
      Option.map_none]
  | other => exact absurd rfl hfield.payload

theorem length_write_pos (hfield : field.IsWritable) : 0 < field.write.length := by
  obtain ⟨number, payload⟩ := field
  cases payload with
  | word value =>
    rw [write, List.length_append]
    exact Nat.add_pos_left (Varint.length_write_pos _) _
  | bytes content =>
    rw [write, List.length_append, List.length_append]
    exact Nat.add_pos_left (Nat.add_pos_left (Varint.length_write_pos _) _) _
  | other => exact absurd rfl hfield.payload

/-- A field has a byte at least, so fuel for every byte is fuel for every field. -/
theorem readAll?_write_append (depth : Nat) {fuel : Nat} (hfield : field.IsWritable)
    (hfuel : (field.write ++ rest).length ≤ fuel) :
    ∃ left, rest.length ≤ left ∧ readAll? depth fuel (field.write ++ rest) =
      (readOne? depth (field.write ++ rest)).bind fun (field, rest) =>
        (readAll? depth left rest).map (field :: ·) := by
  have hpositive := length_write_pos hfield
  rw [List.length_append] at hfuel
  obtain ⟨left, rfl⟩ := Nat.exists_eq_add_of_lt (show 0 < fuel by omega)
  refine ⟨left, by omega, ?_⟩
  cases hbytes : field.write with
  | nil => simp [hbytes] at hpositive
  | cons byte bytes => rw [Nat.zero_add]; rfl

@[simp]
theorem writeAll_cons (field : Field) (fields : List Field) :
    writeAll (field :: fields) = field.write ++ writeAll fields :=
  List.flatMap_cons

theorem readAll?_writeAll {fuel : Nat} (hfields : ∀ field ∈ fields, field.IsWritable)
    (hfits : ∀ field ∈ fields, field.payload.Fits) (hfuel : (writeAll fields).length ≤ fuel) :
    readAll? depth fuel (writeAll fields) = some fields := by
  induction fields generalizing fuel with
  | nil => cases fuel <;> rfl
  | cons field fields ih =>
    obtain ⟨hfield, hothers⟩ := List.forall_mem_cons.mp hfields
    obtain ⟨hfit, hfits⟩ := List.forall_mem_cons.mp hfits
    rw [writeAll_cons] at hfuel ⊢
    obtain ⟨left, hleft, hread⟩ := readAll?_write_append depth hfield hfuel
    rw [hread, readOne?_write_append hfield hfit, Option.bind_some]
    exact Option.map_eq_some_iff.mpr ⟨fields, ih hothers hfits hleft, rfl⟩

theorem readAll?_writeAll_eq_none {fuel : Nat} (hfields : ∀ field ∈ fields, field.IsWritable)
    (hlarge : ¬∀ field ∈ fields, field.payload.Fits) (hfuel : (writeAll fields).length ≤ fuel) :
    readAll? depth fuel (writeAll fields) = none := by
  induction fields generalizing fuel with
  | nil => exact absurd (List.forall_mem_nil _) hlarge
  | cons field fields ih =>
    rw [List.forall_mem_cons] at hlarge
    obtain ⟨hfield, hothers⟩ := List.forall_mem_cons.mp hfields
    rw [writeAll_cons] at hfuel ⊢
    obtain ⟨left, hleft, hread⟩ := readAll?_write_append depth hfield hfuel
    rw [hread]
    by_cases hfit : field.payload.Fits
    · have hrest : ¬∀ other ∈ fields, other.payload.Fits := fun hfits => hlarge ⟨hfit, hfits⟩
      rw [readOne?_write_append hfield hfit, Option.bind_some]
      exact Option.map_eq_none_iff.mpr (ih hothers hrest hleft)
    · rw [readOne?_write_append_eq_none hfield hfit]
      rfl

/-- Fields whose payloads fit are read back. -/
theorem read?_writeAll (hfields : ∀ field ∈ fields, field.IsWritable)
    (hfits : ∀ field ∈ fields, field.payload.Fits) : read? depth (writeAll fields) = some fields :=
  readAll?_writeAll hfields hfits (Nat.le_refl _)

/-- A payload that is too large spoils the message. -/
theorem read?_writeAll_eq_none (hfields : ∀ field ∈ fields, field.IsWritable)
    (hlarge : ¬∀ field ∈ fields, field.payload.Fits) : read? depth (writeAll fields) = none :=
  readAll?_writeAll_eq_none hfields hlarge (Nat.le_refl _)

end Field

end LedgerValue.Wire

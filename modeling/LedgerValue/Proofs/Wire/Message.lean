import LedgerValue.Bridge.Payment
import LedgerValue.Proofs.Wire.Field

/-!
# Messages are read back

A message is read back from its bytes, whichever of its parts are missing, empty or zero. The one
condition is that the lengths within its bytes are words (`PaymentMessage.Fits`). So they are when
its bytes can be counted at all (`fits_of_isUnsigned_length`), and when all its texts are short,
which is to say not nearly as long as a word with a sign can count (`IsShort`). Main statement:
`readPayment_write_iff`.
-/

namespace LedgerValue.Wire

namespace Field

variable {fields : List Field} {number : Nat} {content : List UInt8}

theorem isWritable_bytes (hpositive : 0 < number) (hbounded : number < 0x20000000) :
    IsWritable ⟨number, .bytes content⟩ :=
  ⟨hpositive, hbounded, nofun⟩

@[simp]
theorem writeAll_append (fields others : List Field) :
    writeAll (fields ++ others) = writeAll fields ++ writeAll others :=
  List.flatMap_append

theorem length_le_of_mem (hmem : ⟨number, .bytes content⟩ ∈ fields) :
    content.length ≤ (writeAll fields).length := by
  obtain ⟨before, after, rfl⟩ := List.append_of_mem hmem
  rw [writeAll_append, writeAll_cons, write]
  simp only [List.length_append]
  omega

theorem length_write_bytes_le (number : Nat) (content : List UInt8) :
    (write ⟨number, .bytes content⟩).length ≤ 2 * Varint.maxBytes + content.length := by
  have hkey := Varint.length_write_le (8 * number + 2)
  have hlength := Varint.length_write_le content.length
  rw [write]
  simp only [List.length_append]
  omega

end Field

/-- The text, with the numbers and lengths of three fields, takes fewer bytes than a word with a
sign can count. A bound on the texts alone would not do: the length of an asset counts both of its
texts, and for each of them and for the credit around them a number and a length. Two texts just
below the bound would take it past the words. -/
abbrev IsShort (text : String) : Prop :=
  Word.IsSigned ((Text.utf8 text).length + 3 * Varint.maxBytes : Nat)

section Scalars

variable {number : Nat} {text : String} {word : Nat}

theorem isWritable_textField (hpositive : 0 < number) (hbounded : number < 0x20000000) :
    ∀ field ∈ textField number text, field.IsWritable := by
  rw [textField]
  split
  · exact List.forall_mem_nil _
  · exact List.forall_mem_singleton.mpr (Field.isWritable_bytes hpositive hbounded)

theorem isWritable_wordField (hpositive : 0 < number) (hbounded : number < 0x20000000) :
    ∀ field ∈ wordField number word, field.IsWritable := by
  rw [wordField]
  split
  · exact List.forall_mem_nil _
  · exact List.forall_mem_singleton.mpr ⟨hpositive, hbounded, nofun⟩

theorem fits_textField (hlength : Word.IsUnsigned (Text.utf8 text).length) :
    ∀ field ∈ textField number text, field.payload.Fits := by
  rw [textField]
  split
  · exact List.forall_mem_nil _
  · exact List.forall_mem_singleton.mpr hlength

theorem fits_wordField (hword : Word.IsUnsigned word) :
    ∀ field ∈ wordField number word, field.payload.Fits := by
  rw [wordField]
  split
  · exact List.forall_mem_nil _
  · exact List.forall_mem_singleton.mpr hword

theorem writeAll_partField (number : Nat) (fields : List Field) :
    Field.writeAll [partField number fields] =
      Varint.write (8 * number + 2) ++
        (Varint.write (Field.writeAll fields).length ++ Field.writeAll fields) := by
  have hnil : Field.writeAll [] = [] := rfl
  simp [partField, Field.write, hnil]

theorem length_partField_le (number : Nat) (fields : List Field) :
    (Field.writeAll [partField number fields]).length ≤
      2 * Varint.maxBytes + (Field.writeAll fields).length := by
  rw [Field.writeAll_cons, List.length_append]
  exact Field.length_write_bytes_le number (Field.writeAll fields)

theorem length_utf8_le_textField (number : Nat) (text : String) :
    (Text.utf8 text).length ≤ (Field.writeAll (textField number text)).length := by
  rw [textField]
  split
  · rename_i hempty
    rw [String.isEmpty_iff.mp hempty]
    exact Nat.zero_le _
  · exact Field.length_le_of_mem List.mem_cons_self

theorem length_textField_le (number : Nat) (text : String) :
    (Field.writeAll (textField number text)).length ≤
      2 * Varint.maxBytes + (Text.utf8 text).length := by
  rw [textField]
  split
  · exact Nat.zero_le _
  · rw [Field.writeAll_cons, List.length_append]
    exact Field.length_write_bytes_le number (Text.utf8 text)

variable {σ : Type} {absorb : σ → Field → Option σ} {before after : σ}

/-- A text that is left out leaves the message as it is. -/
theorem foldlM_textField (hempty : text = "" → before = after)
    (habsorb : absorb before ⟨number, .bytes (Text.utf8 text)⟩ = some after) :
    (textField number text).foldlM absorb before = some after := by
  rw [textField]
  split
  · rename_i htext
    rw [hempty (String.isEmpty_iff.mp htext)]
    rfl
  · rw [List.foldlM_cons, habsorb]
    rfl

/-- A number that is left out leaves the message as it is. -/
theorem foldlM_wordField (hzero : word = 0 → before = after)
    (habsorb : absorb before ⟨number, .word word⟩ = some after) :
    (wordField number word).foldlM absorb before = some after := by
  rw [wordField]
  split
  · rename_i hword
    rw [hzero hword]
    rfl
  · rw [List.foldlM_cons, habsorb]
    rfl

theorem foldlM_append_eq_some {fields others : List Field} {last : σ}
    (hfields : fields.foldlM absorb before = some after)
    (hothers : others.foldlM absorb after = some last) :
    (fields ++ others).foldlM absorb before = some last := by
  rw [List.foldlM_append, hfields]
  exact hothers

end Scalars

namespace Credit

variable {credit : Credit}

theorem isWritable_fields : ∀ field ∈ credit.fields, field.IsWritable :=
  List.forall_mem_append.mpr
    ⟨isWritable_textField (by decide) (by decide), isWritable_textField (by decide) (by decide)⟩

/-- A text within is no longer than the whole. -/
theorem fits_fields (hlength : Word.IsUnsigned (Field.writeAll credit.fields).length) :
    ∀ field ∈ credit.fields, field.payload.Fits := by
  have hcode := length_utf8_le_textField 1 credit.code
  have hissuer := length_utf8_le_textField 2 credit.issuer
  rw [fields, Field.writeAll_append, List.length_append, Word.IsUnsigned] at hlength
  exact List.forall_mem_append.mpr
    ⟨fits_textField (Nat.lt_of_le_of_lt hcode (by omega)),
      fits_textField (Nat.lt_of_le_of_lt hissuer (by omega))⟩

theorem foldlM_fields (credit : Credit) : credit.fields.foldlM absorb? empty = some credit := by
  have hcode : (textField 1 credit.code).foldlM absorb? empty = some ⟨credit.code, ""⟩ := by
    refine foldlM_textField (fun hempty => by rw [hempty, empty]) ?_
    simp [absorb?, Payload.text?, empty]
  have hissuer : (textField 2 credit.issuer).foldlM absorb? ⟨credit.code, ""⟩ = some credit := by
    refine foldlM_textField (fun hempty => by rw [← hempty]) ?_
    simp [absorb?, Payload.text?]
  exact foldlM_append_eq_some hcode hissuer

theorem merge?_fields (depth : Nat)
    (hlength : Word.IsUnsigned (Field.writeAll credit.fields).length) :
    merge? depth empty (.bytes (Field.writeAll credit.fields)) = some credit := by
  rw [merge?, Payload.fields?, Field.read?_writeAll isWritable_fields (fits_fields hlength),
    Option.bind_some, foldlM_fields]

theorem length_fields_le (credit : Credit) :
    (Field.writeAll credit.fields).length ≤
      4 * Varint.maxBytes + (Text.utf8 credit.code).length + (Text.utf8 credit.issuer).length := by
  have hcode := length_textField_le 1 credit.code
  have hissuer := length_textField_le 2 credit.issuer
  rw [fields, Field.writeAll_append, List.length_append]
  omega

end Credit

namespace AssetMessage

variable {asset : AssetMessage}

theorem isWritable_fields : ∀ field ∈ asset.fields, field.IsWritable := by
  rw [fields]
  split
  · exact List.forall_mem_nil _
  all_goals exact List.forall_mem_singleton.mpr (Field.isWritable_bytes (by decide) (by decide))

/-- The bytes of a part are no more than those of the whole. -/
theorem fits_fields (hlength : Word.IsUnsigned (Field.writeAll asset.fields).length) :
    ∀ field ∈ asset.fields, field.payload.Fits := by
  obtain ⟨kind⟩ := asset
  rcases kind with _ | (_ | credit | credit)
  · exact List.forall_mem_nil _
  all_goals
    exact List.forall_mem_singleton.mpr
      (Nat.lt_of_le_of_lt (Field.length_le_of_mem List.mem_cons_self) hlength)

theorem foldlM_fields (depth : Nat)
    (hlength : Word.IsUnsigned (Field.writeAll asset.fields).length) :
    asset.fields.foldlM (absorb? depth) empty = some asset := by
  obtain ⟨kind⟩ := asset
  rcases kind with _ | (_ | credit | credit)
  · rfl
  · rfl
  all_goals
    have hcredit : Word.IsUnsigned (Field.writeAll credit.fields).length :=
      Nat.lt_of_le_of_lt (Field.length_le_of_mem List.mem_cons_self) hlength
    simp only [fields, partField, List.foldlM_cons, List.foldlM_nil, absorb?, short, long, empty,
      Credit.merge?_fields depth hcredit, Option.map_some]
    rfl

theorem merge?_fields (depth : Nat)
    (hlength : Word.IsUnsigned (Field.writeAll asset.fields).length) :
    merge? depth empty (.bytes (Field.writeAll asset.fields)) = some asset := by
  rw [merge?, Payload.fields?, Field.read?_writeAll isWritable_fields (fits_fields hlength),
    Option.bind_some, foldlM_fields _ hlength]

/-- The texts of an asset. -/
def texts (asset : AssetMessage) : List String :=
  match asset.kind with
  | some (.alphanum4 credit) => [credit.code, credit.issuer]
  | some (.alphanum12 credit) => [credit.code, credit.issuer]
  | _ => []

/-- The bytes are two texts at most, each with the number and the length of its field, and what
stands before the credit. -/
theorem isUnsigned_length_fields (htexts : ∀ text ∈ asset.texts, IsShort text) :
    Word.IsUnsigned (Field.writeAll asset.fields).length := by
  obtain ⟨kind⟩ := asset
  rcases kind with _ | (_ | credit | credit)
  · decide
  · decide
  all_goals
    have hcode := (htexts credit.code List.mem_cons_self).2
    have hissuer := (htexts credit.issuer (List.mem_cons_of_mem _ List.mem_cons_self)).2
    have hcredit := credit.length_fields_le
    refine Nat.lt_of_le_of_lt (length_partField_le _ credit.fields) ?_
    omega

end AssetMessage

namespace PaymentMessage

variable {payment other : PaymentMessage}

theorem isUnsigned_word (amount : Int64) : Word.IsUnsigned (word amount) :=
  amount.toUInt64.toNat_lt

@[simp]
theorem ofWord_word (amount : Int64) : ofWord (word amount) = amount := by
  rw [ofWord, word, UInt64.ofNat_toNat, Int64.toInt64_toUInt64]

/-- The lengths within the bytes of a payment are words. -/
structure Fits (payment : PaymentMessage) : Prop where
  /-- The length of the destination is one. -/
  destination : Word.IsUnsigned (Text.utf8 payment.destination).length
  /-- The length of the asset, if there is one, is one too. -/
  asset : ∀ asset, payment.asset = some asset →
    Word.IsUnsigned (Field.writeAll asset.fields).length

/-- The field of the asset, if it is there. -/
def assetField : Option AssetMessage → List Field
  | none => []
  | some asset => [partField 2 asset.fields]

theorem fields_eq (payment : PaymentMessage) :
    payment.fields = textField 1 payment.destination ++ assetField payment.asset ++
      wordField 3 (word payment.amount) := by
  obtain ⟨destination, asset, amount⟩ := payment
  cases asset <;> rfl

theorem isWritable_assetField (asset : Option AssetMessage) :
    ∀ field ∈ assetField asset, field.IsWritable := by
  cases asset with
  | none => exact List.forall_mem_nil _
  | some asset =>
    exact List.forall_mem_singleton.mpr (Field.isWritable_bytes (by decide) (by decide))

theorem isWritable_fields : ∀ field ∈ payment.fields, field.IsWritable := by
  rw [fields_eq]
  exact List.forall_mem_append.mpr ⟨List.forall_mem_append.mpr
    ⟨isWritable_textField (by decide) (by decide), isWritable_assetField _⟩,
    isWritable_wordField (by decide) (by decide)⟩

/-- The amount is always a word, so it is a matter of the other fields. -/
theorem fits_iff : payment.Fits ↔ ∀ field ∈ payment.fields, field.payload.Fits := by
  rw [fields_eq, List.forall_mem_append, List.forall_mem_append]
  constructor
  · intro hfits
    refine ⟨⟨fits_textField hfits.destination, ?_⟩, fits_wordField (isUnsigned_word payment.amount)⟩
    cases hfound : payment.asset with
    | none => exact List.forall_mem_nil _
    | some asset => exact List.forall_mem_singleton.mpr (hfits.asset asset hfound)
  · rintro ⟨⟨hdestination, hasset⟩, -⟩
    refine ⟨?_, fun asset hfound => ?_⟩
    · rw [textField] at hdestination
      split at hdestination
      · rename_i hempty
        rw [String.isEmpty_iff.mp hempty]
        decide
      · exact hdestination _ List.mem_cons_self
    · rw [hfound] at hasset
      exact hasset _ List.mem_cons_self

theorem foldlM_fields (hfits : payment.Fits) :
    payment.fields.foldlM absorb? empty = some payment := by
  obtain ⟨destination, asset, amount⟩ := payment
  -- Each field fills in its part of the message and leaves the later parts empty.
  have hdestination :
      (textField 1 destination).foldlM absorb? empty = some ⟨destination, none, 0⟩ := by
    refine foldlM_textField (fun hempty => by rw [hempty, empty]) ?_
    simp [absorb?, Payload.text?, empty]
  have hasset : (assetField asset).foldlM absorb? ⟨destination, none, 0⟩ =
      some ⟨destination, asset, 0⟩ := by
    cases asset with
    | none => rfl
    | some asset =>
      simp only [assetField, partField, List.foldlM_cons, List.foldlM_nil, absorb?,
        Option.getD_none, AssetMessage.merge?_fields _ (hfits.asset asset rfl), Option.map_some]
      rfl
  have hamount : (wordField 3 (word amount)).foldlM absorb? ⟨destination, asset, 0⟩ =
      some ⟨destination, asset, amount⟩ := by
    refine foldlM_wordField (fun hzero => ?_) ?_
    · rw [← ofWord_word amount, hzero]
      rfl
    · simp [absorb?, Payload.word?]
  rw [fields_eq]
  exact foldlM_append_eq_some (foldlM_append_eq_some hdestination hasset) hamount

theorem read?_write_iff : read? payment.write = some payment ↔ payment.Fits := by
  by_cases hfits : payment.Fits
  · rw [read?, write, Field.read?_writeAll isWritable_fields (fits_iff.mp hfits),
      Option.bind_some, foldlM_fields hfits]
    exact iff_of_true rfl hfits
  · rw [read?, write, Field.read?_writeAll_eq_none isWritable_fields (mt fits_iff.mpr hfits)]
    exact iff_of_false nofun hfits

theorem write_injective (hpayment : payment.Fits) (hother : other.Fits)
    (hwrite : payment.write = other.write) : payment = other := by
  refine Option.some.inj ?_
  rw [← read?_write_iff.mpr hpayment, hwrite, read?_write_iff.mpr hother]

/-- The two kinds of a credit have different bytes, however long the texts are. -/
theorem write_alphanum4_ne_alphanum12 (destination : String) (credit : Credit) (amount : Int64) :
    write ⟨destination, some ⟨some (.alphanum4 credit)⟩, amount⟩ ≠
      write ⟨destination, some ⟨some (.alphanum12 credit)⟩, amount⟩ := by
  intro hwrite
  rw [write, write, fields_eq, fields_eq] at hwrite
  simp only [Field.writeAll_append] at hwrite
  have hpart := List.append_cancel_left (List.append_cancel_right hwrite)
  simp only [assetField, AssetMessage.fields, writeAll_partField] at hpart
  have hshort : Varint.write (8 * 2 + 2) = [18] := rfl
  have hlong : Varint.write (8 * 3 + 2) = [26] := rfl
  simp only [hshort, hlong, List.length_append, List.length_singleton] at hpart
  have hkind := List.append_cancel_left (List.append_cancel_left hpart)
  exact absurd (List.cons.inj hkind).1 (by decide)

/-- The texts of a payment. -/
def texts (payment : PaymentMessage) : List String :=
  payment.destination :: payment.asset.elim [] AssetMessage.texts

theorem fits_of_texts (htexts : ∀ text ∈ payment.texts, IsShort text) : payment.Fits := by
  rw [texts, List.forall_mem_cons] at htexts
  obtain ⟨⟨-, hdestination⟩, hrest⟩ := htexts
  refine ⟨by rw [Word.IsUnsigned]; omega, fun asset hasset => ?_⟩
  rw [hasset] at hrest
  exact AssetMessage.isUnsigned_length_fields hrest

/-- No length within the bytes is more than the number of all of them. -/
theorem fits_of_isUnsigned_length (hlength : Word.IsUnsigned payment.write.length) :
    payment.Fits := by
  rw [write, fields_eq, Field.writeAll_append, Field.writeAll_append, List.length_append,
    List.length_append] at hlength
  have hdestination := length_utf8_le_textField 1 payment.destination
  refine ⟨Nat.lt_of_le_of_lt (by omega) hlength, fun asset hfound => ?_⟩
  have hasset : (Field.writeAll asset.fields).length ≤
      (Field.writeAll (assetField payment.asset)).length := by
    rw [hfound]
    exact Field.length_le_of_mem List.mem_cons_self
  exact Nat.lt_of_le_of_lt (by omega) hlength

end PaymentMessage

namespace PriceMessage

@[simp]
theorem ofWord_word (n : Int32) : ofWord (word n) = n :=
  calc
    ofWord (word n) = Int32.ofNat (PaymentMessage.word n.toInt64) := UInt32.toInt32_ofNat'
    _ = (Int64.ofNat (PaymentMessage.word n.toInt64)).toInt32 := Int64.toInt32_ofNat'.symm
    _ = n.toInt64.toInt32 := congrArg Int64.toInt32 (PaymentMessage.ofWord_word n.toInt64)
    _ = n := Int32.toInt32_toInt64 n

theorem eq_zero_of_word {n : Int32} (hzero : word n = 0) : 0 = n := by
  rw [← ofWord_word n, hzero]
  rfl

theorem read?_write (price : PriceMessage) : read? price.write = some price := by
  obtain ⟨n, d⟩ := price
  have hwritable : ∀ field ∈ fields ⟨n, d⟩, field.IsWritable :=
    List.forall_mem_append.mpr
      ⟨isWritable_wordField (by decide) (by decide), isWritable_wordField (by decide) (by decide)⟩
  have hfits : ∀ field ∈ fields ⟨n, d⟩, field.payload.Fits :=
    List.forall_mem_append.mpr ⟨fits_wordField (PaymentMessage.isUnsigned_word n.toInt64),
      fits_wordField (PaymentMessage.isUnsigned_word d.toInt64)⟩
  have hn : (wordField 1 (word n)).foldlM absorb? empty = some ⟨n, 0⟩ := by
    refine foldlM_wordField (fun hzero => by rw [empty, eq_zero_of_word hzero]) ?_
    simp [absorb?, Payload.word?, empty]
  have hd : (wordField 2 (word d)).foldlM absorb? ⟨n, 0⟩ = some ⟨n, d⟩ := by
    refine foldlM_wordField (fun hzero => by rw [eq_zero_of_word hzero]) ?_
    simp [absorb?, Payload.word?]
  rw [read?, write, Field.read?_writeAll hwritable hfits, Option.bind_some]
  exact foldlM_append_eq_some hn hd

end PriceMessage

end LedgerValue.Wire

namespace LedgerValue.Bridge

open Wire

theorem readPayment_eq_ok_iff {bytes : List UInt8} {payment : PaymentMessage} :
    readPayment bytes = .ok payment ↔ PaymentMessage.read? bytes = some payment := by
  rw [readPayment]
  cases PaymentMessage.read? bytes <;> simp

/-- A payment is read back from its bytes exactly when the lengths within them are words. They are
when the number of its bytes is one, which no memory exceeds, and when its texts are short. So no
two such payments have the same bytes. A price is always read back. -/
theorem readPayment_write_iff (payment other : PaymentMessage) (price : PriceMessage) :
    (readPayment payment.write = .ok payment ↔ payment.Fits) ∧
    ((∀ text ∈ payment.texts, IsShort text) → payment.Fits) ∧
    (Word.IsUnsigned payment.write.length → payment.Fits) ∧
    (payment.Fits → other.Fits → (payment.write = other.write ↔ payment = other)) ∧
    readPrice price.write = .ok price := by
  refine ⟨?_, PaymentMessage.fits_of_texts, PaymentMessage.fits_of_isUnsigned_length,
    fun hpayment hother => ?_, ?_⟩
  · rw [readPayment_eq_ok_iff, PaymentMessage.read?_write_iff]
  · exact ⟨PaymentMessage.write_injective hpayment hother, congrArg PaymentMessage.write⟩
  · rw [readPrice, PriceMessage.read?_write]

/-- A payment of a negative amount of a credit without a code, and one whose asset has no kind. -/
theorem readPayment_write_iff_negative :
    let payment : PaymentMessage := ⟨"é", some ⟨some (.alphanum12 ⟨"", "GISSUER"⟩)⟩, -1⟩
    let other : PaymentMessage := ⟨"", some ⟨none⟩, 0⟩
    (∀ text ∈ payment.texts, IsShort text) ∧ Word.IsUnsigned other.write.length ∧
      readPayment payment.write = .ok payment ∧ readPayment other.write = .ok other ∧
      payment.write ≠ other.write ∧ readPrice (PriceMessage.write ⟨-1, 0⟩) = .ok ⟨-1, 0⟩ := by
  intro payment other
  have htexts : ∀ text ∈ payment.texts, IsShort text := by decide
  have hlengthOther : Word.IsUnsigned other.write.length := by decide
  obtain ⟨hread, hfits, -, hwrite, hprice⟩ := readPayment_write_iff payment other ⟨-1, 0⟩
  obtain ⟨hreadOther, -, hfitsOther, -⟩ := readPayment_write_iff other payment ⟨-1, 0⟩
  have hpayment := hfits htexts
  have hother := hfitsOther hlengthOther
  exact ⟨htexts, hlengthOther, hread.mpr hpayment, hreadOther.mpr hother,
    mt (hwrite hpayment hother).mp (by decide), hprice⟩

end LedgerValue.Bridge

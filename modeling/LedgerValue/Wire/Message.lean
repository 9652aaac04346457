import LedgerValue.Text.Utf8
import LedgerValue.Wire.Field

/-!
# Ledger messages

The messages of the ledger and their bytes. Writing leaves out numbers that are zero and texts that
are empty. Reading takes fields in any order and any number: the last number or text counts, parts
that are messages are merged, and unknown fields are passed over. The kind of an asset is one of
three fields, each of which takes the place of the others.
-/

namespace LedgerValue.Wire

/-- An asset that someone issues. -/
structure Credit where
  /-- The code of the asset. -/
  code : String
  /-- The account of the issuer. -/
  issuer : String
deriving DecidableEq, Repr

/-- The kind of an asset. -/
inductive AssetKind where
  /-- The asset of the ledger itself. -/
  | native
  /-- An asset with a code of up to four characters. -/
  | alphanum4 (credit : Credit)
  /-- An asset with a code of five to twelve characters. -/
  | alphanum12 (credit : Credit)
deriving DecidableEq, Repr

/-- An asset. -/
structure AssetMessage where
  /-- Its kind, if it has one. -/
  kind : Option AssetKind
deriving DecidableEq, Repr

/-- A price as a fraction. -/
structure PriceMessage where
  /-- The numerator. -/
  n : Int32
  /-- The denominator. -/
  d : Int32
deriving DecidableEq

/-- A payment. -/
structure PaymentMessage where
  /-- The account that is paid. -/
  destination : String
  /-- The asset that is paid, if it is there. -/
  asset : Option AssetMessage
  /-- The count of ten-millionths that is paid. -/
  amount : Int64
deriving DecidableEq

/-- How deep messages and groups may nest. -/
def maxDepth : Nat := 100

/-- The field of a text, left out if it is empty. -/
def textField (number : Nat) (text : String) : List Field :=
  if text.isEmpty then [] else [⟨number, .bytes (Text.utf8 text)⟩]

/-- The field of a word, left out if it is zero. -/
def wordField (number word : Nat) : List Field :=
  if word = 0 then [] else [⟨number, .word word⟩]

/-- The field of a part that is a message. -/
def partField (number : Nat) (fields : List Field) : Field :=
  ⟨number, .bytes (Field.writeAll fields)⟩

/-- The text of a payload. -/
def Payload.text? : Payload → Option String
  | bytes content => Text.ofUtf8? content
  | _ => none

/-- The fields of a payload that is a message. -/
def Payload.fields? (depth : Nat) : Payload → Option (List Field)
  | bytes content => Field.read? depth content
  | _ => none

/-- The word of a payload. -/
def Payload.word? : Payload → Option Nat
  | word value => some value
  | _ => none

namespace Credit

/-- The credit of no fields. -/
def empty : Credit := ⟨"", ""⟩

/-- The fields of a credit. -/
def fields (credit : Credit) : List Field :=
  textField 1 credit.code ++ textField 2 credit.issuer

/-- Takes a field into account. -/
def absorb? (credit : Credit) (field : Field) : Option Credit :=
  match field.number with
  | 1 => field.payload.text?.map fun code => { credit with code }
  | 2 => field.payload.text?.map fun issuer => { credit with issuer }
  | _ => some credit

/-- Merges a payload into a credit. -/
def merge? (depth : Nat) (credit : Credit) (payload : Payload) : Option Credit :=
  (payload.fields? depth).bind fun fields => fields.foldlM absorb? credit

end Credit

namespace AssetMessage

/-- The asset of no fields. -/
def empty : AssetMessage := ⟨none⟩

/-- The fields of an asset. -/
def fields (asset : AssetMessage) : List Field :=
  match asset.kind with
  | none => []
  | some .native => [partField 1 []]
  | some (.alphanum4 credit) => [partField 2 credit.fields]
  | some (.alphanum12 credit) => [partField 3 credit.fields]

/-- The credit that a field for short codes is merged into. -/
def short (asset : AssetMessage) : Credit :=
  match asset.kind with
  | some (.alphanum4 credit) => credit
  | _ => Credit.empty

/-- The credit that a field for long codes is merged into. -/
def long (asset : AssetMessage) : Credit :=
  match asset.kind with
  | some (.alphanum12 credit) => credit
  | _ => Credit.empty

/-- Takes a field into account. -/
def absorb? (depth : Nat) (asset : AssetMessage) (field : Field) : Option AssetMessage :=
  match field.number with
  | 1 => (field.payload.fields? depth).map fun _ => ⟨some .native⟩
  | 2 => (asset.short.merge? depth field.payload).map fun credit => ⟨some (.alphanum4 credit)⟩
  | 3 => (asset.long.merge? depth field.payload).map fun credit => ⟨some (.alphanum12 credit)⟩
  | _ => some asset

/-- Merges a payload into an asset. -/
def merge? (depth : Nat) (asset : AssetMessage) (payload : Payload) : Option AssetMessage :=
  (payload.fields? depth).bind fun fields => fields.foldlM (absorb? (depth - 1)) asset

end AssetMessage

namespace PriceMessage

/-- The price of no fields. -/
def empty : PriceMessage := ⟨0, 0⟩

/-- The word of a number of 32 bits, its sign extended. -/
def word (n : Int32) : Nat := n.toInt64.toUInt64.toNat

/-- The number in the low 32 bits of a word. -/
def ofWord (word : Nat) : Int32 := (UInt32.ofNat word).toInt32

/-- The fields of a price. -/
def fields (price : PriceMessage) : List Field :=
  wordField 1 (word price.n) ++ wordField 2 (word price.d)

/-- The bytes of a price. -/
def write (price : PriceMessage) : List UInt8 := Field.writeAll price.fields

/-- Takes a field into account. -/
def absorb? (price : PriceMessage) (field : Field) : Option PriceMessage :=
  match field.number with
  | 1 => field.payload.word?.map fun w => { price with n := ofWord w }
  | 2 => field.payload.word?.map fun w => { price with d := ofWord w }
  | _ => some price

/-- Reads a price. -/
def read? (input : List UInt8) : Option PriceMessage :=
  (Field.read? maxDepth input).bind fun fields => fields.foldlM absorb? empty

end PriceMessage

namespace PaymentMessage

/-- The payment of no fields. -/
def empty : PaymentMessage := ⟨"", none, 0⟩

/-- The word of an amount. -/
def word (amount : Int64) : Nat := amount.toUInt64.toNat

/-- The amount of a word. -/
def ofWord (word : Nat) : Int64 := (UInt64.ofNat word).toInt64

/-- The fields of a payment. -/
def fields (payment : PaymentMessage) : List Field :=
  textField 1 payment.destination
    ++ (match payment.asset with
      | none => []
      | some asset => [partField 2 asset.fields])
    ++ wordField 3 (word payment.amount)

/-- The bytes of a payment. -/
def write (payment : PaymentMessage) : List UInt8 := Field.writeAll payment.fields

/-- Takes a field into account. -/
def absorb? (payment : PaymentMessage) (field : Field) : Option PaymentMessage :=
  match field.number with
  | 1 => field.payload.text?.map fun destination => { payment with destination }
  | 2 =>
    ((payment.asset.getD AssetMessage.empty).merge? (maxDepth - 1) field.payload).map
      fun asset => { payment with asset := some asset }
  | 3 => field.payload.word?.map fun w => { payment with amount := ofWord w }
  | _ => some payment

/-- Reads a payment. -/
def read? (input : List UInt8) : Option PaymentMessage :=
  (Field.read? maxDepth input).bind fun fields => fields.foldlM absorb? empty

end PaymentMessage

end LedgerValue.Wire

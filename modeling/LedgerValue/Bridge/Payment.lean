import LedgerValue.Asset
import LedgerValue.Bridge.Error
import LedgerValue.Digest.Sha256
import LedgerValue.Wire.Message

/-!
# The bridge to the ledger

Assets, amounts, prices and payments become messages and come back. Whatever converts to the type
of a part is accepted for it, but it has to be known and not null. The native asset has a kind of
its own in messages; every other asset has a code of ASCII letters and digits, whose length decides
the kind.
-/

namespace LedgerValue.Bridge

/-- The outcome of a passage over the bridge. -/
abbrev Bridged := Except BridgeError

/-- Converts a part to its type, and refuses it if it is unknown or null. -/
def require (part : Part) (value : Value) (ty : Ty) : Bridged Value :=
  ((convert value ty).mapError .conversion).bind fun converted =>
    if !converted.isKnown then .error (.unknown part)
    else if converted.isNull then .error (.null part)
    else .ok converted

/-- The part of an object, refused if it is unknown. -/
def partOf (part : Part) (object : Value) (name : String) : Bridged Value :=
  ((index object (.string name)).mapError .field).bind fun value =>
    if value.isKnown then .ok value else .error (.unknown part)

/-- The text of a part, refused if there is none. -/
def textOf (part : Part) (value : Value) : Bridged String :=
  match value.text? with
  | some text => .ok text
  | none => .error (.null part)

/-- The kind of a credit by the number of bytes in its code, which is at most `limit` past four. -/
def creditKind? (limit : Nat) (credit : Wire.Credit) : Option Wire.AssetKind :=
  let size := credit.code.utf8ByteSize
  if 1 ≤ size ∧ size ≤ 4 then some (.alphanum4 credit)
  else if 5 ≤ size ∧ size ≤ limit then some (.alphanum12 credit)
  else none

/-- The kind of the asset with a code and an issuer. -/
def issuedKind (config : BridgeConfig) (code issuer : String) : Bridged Wire.AssetKind :=
  if code.toList.all Char.isAlphanum then
    match creditKind? (min config.maxCodeLength maxWireCodeLength) ⟨code, issuer⟩ with
    | some kind => .ok kind
    | none => .error (.invalidAssetCode code)
  else .error (.invalidAssetCode code)

/-- The message of an asset. -/
def assetMessage (config : BridgeConfig) (value : Value) : Bridged Wire.AssetMessage :=
  (require .asset value assetTy).bind fun asset =>
    if isNativeAsset asset then .ok ⟨some .native⟩
    else
      (partOf .assetCode asset "code").bind fun code =>
      (partOf .assetIssuer asset "issuer").bind fun issuer =>
      (textOf .assetCode code).bind fun code =>
      (textOf .assetIssuer issuer).bind fun issuer =>
        (issuedKind config code issuer).map fun kind => ⟨some kind⟩

/-- The asset of a message. -/
def assetValue (message : Wire.AssetMessage) : Bridged Value :=
  match message.kind with
  | none => .error (.missingField .assetKind)
  | some .native => .ok nativeAsset
  | some (.alphanum4 credit) => .ok (creditAsset credit.code credit.issuer)
  | some (.alphanum12 credit) => .ok (creditAsset credit.code credit.issuer)

/-- The count of an amount. Nothing but an amount is accepted. -/
def amountWord (config : BridgeConfig) (value : Value) : Bridged Int64 :=
  (require .amount value .assetAmount).bind fun converted =>
    match converted.amount? with
    | none => .error (.null .amount)
    | some amount =>
      if config.requirePositiveAmounts && amount.raw ≤ 0 then .error (.nonPositiveAmount amount)
      else .ok amount.raw

/-- The amount of a count. -/
def amountValue (raw : Int64) : Value := .amount ⟨raw⟩

/-- The message of a price in lowest terms. -/
def priceMessage (value : Value) : Bridged Wire.PriceMessage :=
  (require .price value .number).bind fun converted =>
    match converted.number? with
    | none => .error (.null .price)
    | some price =>
      if 0 < price.num ∧ price.num < 0x80000000 ∧ price.den < 0x80000000 then
        .ok ⟨Int32.ofInt price.num, Int32.ofNat price.den⟩
      else .error (.priceOutOfRange price)

/-- The price of a message. -/
def priceValue (message : Wire.PriceMessage) : Bridged Value :=
  ((Number.ofFraction message.n.toInt message.d.toInt).mapError .number).map .number

/-- The message of a payment: an object with a destination, an asset and an amount. -/
def paymentMessage (config : BridgeConfig) (value : Value) : Bridged Wire.PaymentMessage :=
  if !value.isKnown then .error (.unknown .payment)
  else
    (partOf .destination value "destination").bind fun part =>
    (require .destination part .string).bind fun destination =>
    (partOf .asset value "asset").bind fun asset =>
    (partOf .amount value "amount").bind fun amount =>
    (assetMessage config asset).bind fun asset =>
    (amountWord config amount).map fun amount =>
      { destination := destination.text?.getD "", asset := some asset, amount }

/-- The payment of a message. -/
def paymentValue (message : Wire.PaymentMessage) : Bridged Value :=
  match message.asset with
  | none => .error (.missingField .paymentAsset)
  | some asset =>
    (assetValue asset).map fun asset =>
      .objectOf [("destination", .string message.destination), ("asset", asset),
        ("amount", amountValue message.amount)]

/-- Reads the bytes of a payment. -/
def readPayment (bytes : List UInt8) : Bridged Wire.PaymentMessage :=
  match Wire.PaymentMessage.read? bytes with
  | some message => .ok message
  | none => .error .decode

/-- Reads the bytes of a price. -/
def readPrice (bytes : List UInt8) : Bridged Wire.PriceMessage :=
  match Wire.PriceMessage.read? bytes with
  | some message => .ok message
  | none => .error .decode

/-- Reads the text of a configuration. -/
def readConfig (text : String) : Bridged BridgeConfig :=
  (BridgeConfig.read text).mapError .config

/-- The SHA-256 digest of the bytes of a payment. -/
def paymentDigest (message : Wire.PaymentMessage) : String := Sha256.hexDigest message.write

end LedgerValue.Bridge

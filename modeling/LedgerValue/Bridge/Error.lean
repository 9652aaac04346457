import LedgerValue.Bridge.Config
import LedgerValue.Indexing
import LedgerValue.Number.Decimal

/-!
# Errors of the bridge

What keeps a value from becoming a message, or a message from becoming a value.
-/

namespace LedgerValue

/-- A part that a message is made of. -/
inductive Part where
  /-- The payment as a whole. -/
  | payment
  /-- The account that is paid. -/
  | destination
  /-- The asset that is paid. -/
  | asset
  /-- The code of the asset. -/
  | assetCode
  /-- The issuer of the asset. -/
  | assetIssuer
  /-- The amount that is paid. -/
  | amount
  /-- The price. -/
  | price
deriving DecidableEq, Repr

/-- The words for a part. -/
def Part.name : Part → String
  | payment => "payment"
  | destination => "destination"
  | asset => "asset"
  | assetCode => "asset code"
  | assetIssuer => "asset issuer"
  | amount => "amount"
  | price => "price"

/-- A part that a message lacks. -/
inductive Gap where
  /-- The kind of an asset. -/
  | assetKind
  /-- The asset of a payment. -/
  | paymentAsset
deriving DecidableEq, Repr

/-- The words for a part that a message lacks. -/
def Gap.name : Gap → String
  | assetKind => "asset kind"
  | paymentAsset => "payment asset"

/-- Why a value cannot become a message, or a message a value. -/
inductive BridgeError where
  /-- The configuration is refused. -/
  | config (fault : BridgeConfig.Fault)
  /-- A part does not convert to its type. -/
  | conversion (cause : ConversionError)
  /-- A part is not there. -/
  | field (cause : IndexError)
  /-- A part is not known. -/
  | unknown (part : Part)
  /-- A part is null. -/
  | null (part : Part)
  /-- The code of an asset is too long or too short, or has a character that no code has. -/
  | invalidAssetCode (code : String)
  /-- An amount is not positive. -/
  | nonPositiveAmount (amount : AssetAmount)
  /-- A price is not a positive fraction of numbers of 32 bits. -/
  | priceOutOfRange (price : Number)
  /-- A message lacks a part. -/
  | missingField (gap : Gap)
  /-- The numbers of a message are no number. -/
  | number (cause : NumberError)
  /-- The bytes are no message. -/
  | decode
deriving DecidableEq

/-- The sentence that reports an error. -/
def BridgeError.message : BridgeError → String
  | config fault => "invalid bridge config: " ++ fault.message
  | conversion cause => cause.message
  | field cause => (cause.diagnostic none).message
  | unknown part => part.name ++ " is not yet known"
  | null part => part.name ++ " must not be null"
  | invalidAssetCode code => "invalid asset code " ++ Text.quoted code
  | nonPositiveAmount amount => "amount must be positive, got " ++ amount.text
  | priceOutOfRange price =>
    "price " ++ price.render Number.defaultPlaces
      ++ " cannot be expressed as a positive 32-bit fraction"
  | missingField gap => "missing " ++ gap.name
  | number cause => cause.message
  | decode => "malformed wire message"

end LedgerValue

import LedgerValue.Value.Equality

/-!
# Assets

An asset is an object with the texts `code` and `issuer`. The native asset of the ledger has no
issuer: there the issuer is null, so that both kinds have the one type of assets.
-/

namespace LedgerValue

/-- The code of the native asset. -/
def nativeCode : String := "XLM"

/-- The type of assets. -/
def assetTy : Ty := .object [("code", .string), ("issuer", .string)]

/-- The asset that the ledger itself issues. -/
def nativeAsset : Value := .object [("code", .string nativeCode), ("issuer", .null .string)]

/-- The asset with a code that someone issues. -/
def creditAsset (code issuer : String) : Value :=
  .object [("code", .string code), ("issuer", .string issuer)]

/-- The value is the native asset. -/
def isNativeAsset (value : Value) : Bool := value.rawEqual nativeAsset

end LedgerValue

import LedgerValue.Canonical.Error
import LedgerValue.Digest.Sha256
import LedgerValue.Json.Printer
import LedgerValue.Text.Utf8
import LedgerValue.Ty.Json

/-!
# Writing canonical documents

A document holds the version of its form, the type of the value and the value itself, in this
order. The value part has no tags: the type tells how to read it. Numbers of both kinds are exact
ratios in lowest terms, amounts are integers, and payloads of foreign capsules are hexadecimal
digits. Unknown values and host numbers that are not finite cannot be written.
-/

namespace LedgerValue

namespace Canonical

/-- The version of the form. -/
def formatVersion : Nat := 1

mutual

/-- The value part of a document. -/
def ofValue : Value → Except CanonicalError Json
  | .null _ => .ok .null
  | .unknown _ => .error .unknownValue
  | .string text => .ok (.string text)
  | .bool value => .ok (.bool value)
  | .hostNumber x => (x.toNumber.mapError .number).map fun n => .string n.ratioText
  | .number n => .ok (.string n.ratioText)
  | .amount amount => .ok (.integer amount.raw.toInt)
  | .list _ items => (ofItems items).map .array
  | .tuple items => (ofItems items).map .array
  | .map _ entries => (ofEntries entries).map .object
  | .object attributes => (ofEntries attributes).map .object
  | .foreign _ payload => .ok (.string (String.ofList (Text.hex payload)))

/-- The value parts of some values. -/
def ofItems : List Value → Except CanonicalError (List Json)
  | [] => .ok []
  | item :: rest => (ofValue item).bind fun json => (ofItems rest).map (json :: ·)

/-- The value parts of named values. -/
def ofEntries : List (String × Value) → Except CanonicalError (List (String × Json))
  | [] => .ok []
  | (name, value) :: rest =>
    (ofValue value).bind fun json => (ofEntries rest).map ((name, json) :: ·)

end

/-- The document of a type part and a value part. -/
def assemble (ty value : Json) : Json :=
  .object [("format_version", .integer formatVersion), ("type", ty), ("value", value)]

/-- The document of a value. -/
def document (value : Value) : Except CanonicalError Json :=
  (ofValue value).map (assemble value.ty.toJson)

/-- The text of the document of a value. -/
def write (value : Value) : Except CanonicalError String :=
  (document value).map Json.print

/-- The bytes of the document of a value in UTF-8. -/
def writeBytes (value : Value) : Except CanonicalError (List UInt8) :=
  (write value).map Text.utf8

/-- The SHA-256 digest of the document of a value. -/
def hash (value : Value) : Except CanonicalError String :=
  (writeBytes value).map Sha256.hexDigest

end Canonical

end LedgerValue

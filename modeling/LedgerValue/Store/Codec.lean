import LedgerValue.Canonical.Reader
import LedgerValue.Conversion.Basic
import LedgerValue.Store.FilePath

/-!
# Stored documents

A value is stored as the text of its canonical document. Restoring reads the document and converts
what it holds to the type that is expected.
-/

namespace LedgerValue

/-- Why a value cannot be stored or loaded. -/
inductive CodecError where
  /-- The value has no document. -/
  | serialization (cause : CanonicalError)
  /-- The text is no document. -/
  | deserialization (cause : CanonicalError)
  /-- The stored value does not convert to the expected type. -/
  | conversion (cause : ConversionError)
  /-- The file cannot be used. -/
  | file (fault : FileFault)
deriving DecidableEq, Repr

namespace Codec

/-- The text of a value. -/
def encode (value : Value) : Except CodecError String :=
  (Canonical.write value).mapError .serialization

/-- The value of a text, of the type that the text declares. -/
def decode (text : String) : Except CodecError Value :=
  (Canonical.read text).mapError .deserialization

/-- The value of a text, converted to a type. -/
def restore (text : String) (expected : Ty) : Except CodecError Value :=
  (decode text).bind fun value => (convert value expected).mapError .conversion

/-- The digest of the text of a value. -/
def hash (value : Value) : Except CodecError String :=
  (Canonical.hash value).mapError .serialization

end Codec

end LedgerValue

import LedgerValue.Number.Spelling
import LedgerValue.Number.Decimal
import LedgerValue.Record
import LedgerValue.Text.Hex
import LedgerValue.HostNumber.Text
import LedgerValue.Json.Printer
import LedgerValue.Json.Reader
import LedgerValue.Ty.Conformance
import LedgerValue.Value.Basic
import LedgerValue.Value.Equality
import LedgerValue.Value.WellFormed
import LedgerValue.Value.Part
import LedgerValue.Value.Refinement
import LedgerValue.Path
import LedgerValue.Reproduction
import LedgerValue.Conversion.Basic
import LedgerValue.Diagnostic.Json
import LedgerValue.Indexing
import LedgerValue.Arithmetic
import LedgerValue.Expression
import LedgerValue.Asset
import LedgerValue.Canonical.Reader
import LedgerValue.Canonical.Writable
import LedgerValue.Bridge.Payment
import LedgerValue.Store.Command
import LedgerValue.Proofs.Ty.Json
import LedgerValue.Proofs.HostNumber.Exact
import LedgerValue.Proofs.Canonical.Equality
import LedgerValue.Proofs.Conversion.Soundness
import LedgerValue.Proofs.Expression
import LedgerValue.Proofs.Canonical.Rereading
import LedgerValue.Proofs.Canonical.Text
import LedgerValue.Proofs.Store.Loading
import LedgerValue.Proofs.Conversion.Loosening
import LedgerValue.Proofs.Conversion.FromDynamic
import LedgerValue.Proofs.Wire.Message
import LedgerValue.Proofs.Bridge.Dependence
import LedgerValue.Proofs.Bridge.Provenance
import LedgerValue.Proofs.Canonical.Strictness
import LedgerValue.Proofs.Store.Documents
import LedgerValue.Proofs.Store.Restoring
import LedgerValue.Proofs.Number.Rendering
import LedgerValue.Proofs.ExactArithmetic
import LedgerValue.Proofs.Conversion.FirstFailure
import LedgerValue.Proofs.Conversion.Element
import LedgerValue.Proofs.Bridge.Code
import LedgerValue.Proofs.Bridge.Price
import LedgerValue.Proofs.AssetAmount
import LedgerValue.Proofs.Number.Limit
import LedgerValue.Proofs.Canonical.LeafText
import LedgerValue.Proofs.Reproduction.Value

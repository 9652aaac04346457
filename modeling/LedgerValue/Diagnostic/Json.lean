import LedgerValue.Diagnostic.Basic
import LedgerValue.Json.Document

/-!
# Diagnostics as JSON

A diagnostic is written as an object of its fields in their order. It is read from such an object,
with the fields in any order and other members skipped, or from an array of all the fields.
-/

namespace LedgerValue

namespace Json.Document

/-- The text of a string. -/
def text? : Document → Option String
  | string text => text
  | _ => none

/-- An integer that is an unsigned 64-bit word. -/
def natWord? : Document → Option Nat
  | number numeral => numeral.integer?.bind Word.unsigned?
  | _ => none

/-- The name of a case without a payload, alone or as the name of a null member. -/
def caseName? : Document → Option String
  | string text => text
  | object [(some name, null)] => some name
  | _ => none

/-- The first member with a name. -/
def member? (name : String) : List (Option String × Document) → Option Document
  | [] => none
  | (other, value) :: rest => if other = some name then some value else member? name rest

/-- How often a name stands. -/
def occurrences (name : String) (members : List (Option String × Document)) : Nat :=
  members.countP fun entry => entry.1 = some name

/-- The documents of some fields: members that stand once at most, or the items of an array that
has one for each field. -/
def fields? (names : List String) : Document → Option (List (Option Document))
  | object members =>
    if members.all (fun entry => entry.1.isSome)
        && names.all (fun name => occurrences name members ≤ 1) then
      some (names.map fun name => member? name members)
    else none
  | array items => if items.length = names.length then some (items.map some) else none
  | _ => none

end Json.Document

namespace SourcePosition

/-- A position as JSON. -/
def toJson (position : SourcePosition) : Json :=
  .object [("line", .integer position.line), ("column", .integer position.column),
    ("byte", .integer position.byte)]

/-- Reads a position. -/
def ofDocument? (document : Json.Document) : Option SourcePosition :=
  match document.fields? ["line", "column", "byte"] with
  | some [some line, some column, some byte] =>
    line.natWord?.bind fun line => column.natWord?.bind fun column =>
    byte.natWord?.map fun byte => { line, column, byte }
  | _ => none

end SourcePosition

namespace SourceRange

/-- A range as JSON. -/
def toJson (range : SourceRange) : Json :=
  .object [("filename", .string range.filename), ("start", range.start.toJson),
    ("end", range.stop.toJson)]

/-- Reads a range. -/
def ofDocument? (document : Json.Document) : Option SourceRange :=
  match document.fields? ["filename", "start", "end"] with
  | some [some filename, some start, some stop] =>
    filename.text?.bind fun filename => (SourcePosition.ofDocument? start).bind fun start =>
    (SourcePosition.ofDocument? stop).map fun stop => { filename, start, stop }
  | _ => none

/-- Reads a range that may be null. -/
def ofNullable? : Json.Document → Option (Option SourceRange)
  | .null => some none
  | document => (ofDocument? document).map some

end SourceRange

/-- Reads a severity. -/
def Severity.ofDocument? (document : Json.Document) : Option Severity :=
  document.caseName?.bind fun name => [Severity.warning, .error].find? (·.name = name)

/-- Reads a code. -/
def DiagnosticCode.ofDocument? (document : Json.Document) : Option DiagnosticCode :=
  document.caseName?.bind fun name => DiagnosticCode.all.find? (·.name = name)

namespace Diagnostic

/-- A diagnostic as JSON. -/
def toJson (diagnostic : Diagnostic) : Json :=
  .object [("severity", .string diagnostic.severity.name), ("code", .string diagnostic.code.name),
    ("summary", .string diagnostic.summary), ("detail", .string diagnostic.detail),
    ("subject", (diagnostic.subject.map SourceRange.toJson).getD .null)]

/-- Reads a diagnostic. A missing subject is none. -/
def ofDocument? (document : Json.Document) : Option Diagnostic :=
  match document.fields? ["severity", "code", "summary", "detail", "subject"] with
  | some [some severity, some code, some summary, some detail, subject] =>
    (Severity.ofDocument? severity).bind fun severity =>
    (DiagnosticCode.ofDocument? code).bind fun code =>
    summary.text?.bind fun summary => detail.text?.bind fun detail =>
    (subject.elim (some none) SourceRange.ofNullable?).map fun subject =>
      { severity, code, summary, detail, subject }
  | _ => none

end Diagnostic

end LedgerValue

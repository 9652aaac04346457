/-!
# Diagnostics

A diagnostic reports a problem at a place in a source file, for people and, by its code, for
programs.
-/

namespace LedgerValue

/-- How grave a problem is. -/
inductive Severity where
  /-- The work goes on. -/
  | warning
  /-- The work stops. -/
  | error
deriving DecidableEq, Repr

/-- The word for a severity. -/
def Severity.name : Severity → String
  | warning => "warning"
  | error => "error"

/-- A position in a source file. -/
structure SourcePosition where
  /-- The line, counted from one. -/
  line : Nat
  /-- The column, counted from one. -/
  column : Nat
  /-- The bytes before the position. -/
  byte : Nat
deriving DecidableEq, Repr

/-- A range of a source file. -/
structure SourceRange where
  /-- The name of the file. -/
  filename : String
  /-- The position of the first character. -/
  start : SourcePosition
  /-- The position after the last character. -/
  stop : SourcePosition
deriving DecidableEq, Repr

/-- The file, and the lines and columns of both ends. -/
def SourceRange.text (range : SourceRange) : String :=
  range.filename ++ ":" ++ toString range.start.line ++ "," ++ toString range.start.column ++ "-"
    ++ toString range.stop.line ++ "," ++ toString range.stop.column

/-- The kinds of problem with an index. -/
inductive DiagnosticCode where
  /-- The indexed value is null. -/
  | indexOnNull
  /-- The key is null. -/
  | nullIndexKey
  /-- The key does not convert to the kind of key that the collection has. -/
  | invalidIndexKey
  /-- The key of a sequence is not whole. -/
  | fractionalIndex
  /-- The collection has no element at the key. -/
  | indexNotFound
  /-- The indexed value is no collection. -/
  | unsupportedIndexTarget
deriving DecidableEq, Repr

/-- The name of a code. -/
def DiagnosticCode.name : DiagnosticCode → String
  | indexOnNull => "index_on_null"
  | nullIndexKey => "null_index_key"
  | invalidIndexKey => "invalid_index_key"
  | fractionalIndex => "fractional_index"
  | indexNotFound => "index_not_found"
  | unsupportedIndexTarget => "unsupported_index_target"

/-- All codes. -/
def DiagnosticCode.all : List DiagnosticCode :=
  [indexOnNull, nullIndexKey, invalidIndexKey, fractionalIndex, indexNotFound,
    unsupportedIndexTarget]

/-- A report of a problem. -/
structure Diagnostic where
  /-- How grave it is. -/
  severity : Severity
  /-- Its kind. -/
  code : DiagnosticCode
  /-- What is wrong, in a few words. -/
  summary : String
  /-- What is wrong, in a sentence. -/
  detail : String
  /-- Where it arose, if that is known. -/
  subject : Option SourceRange
deriving DecidableEq, Repr

/-- The place, the severity, the summary and the detail on one line. -/
def Diagnostic.message (diagnostic : Diagnostic) : String :=
  (match diagnostic.subject with
    | some range => range.text ++ ": "
    | none => "")
    ++ diagnostic.severity.name ++ ": " ++ diagnostic.summary ++ "; " ++ diagnostic.detail

end LedgerValue

import LedgerValue.Number.Basic
import LedgerValue.Path
import LedgerValue.Value.Basic

/-!
# Conversion errors

A conversion fails at one place for one cause. The error holds the path to the place, which is
empty for the value itself, and the cause. On the way up each level puts its step in front of the
report, which never nests more than once. Main statement: the report of an error below the value
itself is its cause at the steps of its path, written one after the other (`report_eq_nested`).
-/

namespace LedgerValue

/-- Why a conversion fails. -/
inductive ConversionFault where
  /-- No rule leads from the one type to the other. -/
  | mismatch (source target : Ty)
  /-- A text is not the spelling of a number. -/
  | numberRequired
  /-- A text is not the word for a truth value. -/
  | boolRequired
  /-- A host number has no exact value. -/
  | number (cause : NumberError)
  /-- A wanted attribute is not there. -/
  | missingAttribute (name : String)
  /-- There are more or fewer items than positions. -/
  | lengthMismatch (wanted found : Nat)
  /-- The elements did not come out with one type. -/
  | inconsistentElements
  /-- A collection was refused for an element without the declared type. -/
  | element (fault : Value.ElementFault)
deriving DecidableEq, Repr

/-- The sentence that reports a cause. -/
def ConversionFault.message : ConversionFault → String
  | mismatch _ target => target.describe ++ " required"
  | numberRequired => "a number is required"
  | boolRequired => "a bool is required"
  | number cause => cause.message
  | missingAttribute name => "attribute " ++ Text.quoted name ++ " is required"
  | lengthMismatch wanted found =>
    "incorrect number of elements: need " ++ toString wanted ++ ", got " ++ toString found
  | inconsistentElements => "all elements must have the same type"
  | element fault => fault.message

/-- What is reported of a failed conversion. -/
inductive ConversionReport where
  /-- A cause at the converted value itself. -/
  | cause (fault : ConversionFault)
  /-- What is reported of the part at the end of a path. -/
  | nested (path : String) (inner : ConversionReport)
deriving DecidableEq, Repr

namespace ConversionReport

/-- The report of a part, seen from the whole. The path of a nested report grows by the step. -/
def under (step : String) : ConversionReport → ConversionReport
  | nested path inner => nested (step ++ path) inner
  | other => nested step other

/-- The sentence of a report. -/
def message : ConversionReport → String
  | cause fault => fault.message
  | nested path inner => path ++ ": " ++ inner.message

/-- Steps that are put in front one after the other, from the last to the first, make one path. -/
theorem foldr_under (fault : ConversionFault) (step : Step) (path : Path) :
    (step :: path).foldr (fun step report => under step.text report) (cause fault) =
      nested (Path.text (step :: path)) (cause fault) := by
  induction path generalizing step with
  | nil =>
    rw [Path.text_singleton]
    rfl
  | cons next path ih =>
    rw [List.foldr_cons, ih, Path.text_cons step]
    rfl

end ConversionReport

/-- A cause and the place where it arose. -/
structure ConversionError where
  /-- The way from the converted value to the place. -/
  path : Path
  /-- The cause. -/
  fault : ConversionFault
deriving DecidableEq, Repr

namespace ConversionError

/-- The error at the value itself. -/
def here (fault : ConversionFault) : ConversionError := ⟨[], fault⟩

/-- The error of a part, seen from the whole. -/
def under (step : Step) (error : ConversionError) : ConversionError :=
  ⟨step :: error.path, error.fault⟩

/-- The report of an error, as it grows from the place to the value itself. -/
def report (error : ConversionError) : ConversionReport :=
  error.path.foldr (fun step report => report.under step.text) (.cause error.fault)

/-- The sentence that reports an error: the path, if there is one, and the cause. -/
def message (error : ConversionError) : String := error.report.message

/-- An error seen from the whole is reported with the step in front. -/
theorem report_under (step : Step) (error : ConversionError) :
    (under step error).report = error.report.under step.text := rfl

/-- A report nests once, however far below the value itself the cause lies. -/
theorem report_eq_nested {error : ConversionError} (hnested : error.path ≠ []) :
    error.report = .nested error.path.text (.cause error.fault) := by
  obtain ⟨step, path, hpath⟩ := List.exists_cons_of_ne_nil hnested
  rw [report, hpath, ConversionReport.foldr_under]

end ConversionError

end LedgerValue

import LedgerValue.Number.Basic
import LedgerValue.Path
import LedgerValue.Value.Basic

/-!
# Errors of canonical documents

What keeps a value from being written as a canonical document, and a document from being read. An
error of shape tells the place and what was expected there.
-/

namespace LedgerValue

/-- What was expected at a place of a document. -/
inductive Expectation where
  /-- A string. -/
  | string
  /-- A truth value. -/
  | bool
  /-- A numerator and a denominator. -/
  | ratio
  /-- A ratio with a nearest host number. -/
  | finiteNumber
  /-- An integer of 64 bits. -/
  | integer
  /-- Hexadecimal digits. -/
  | hex
  /-- An array. -/
  | array
  /-- An array with an item for each position. -/
  | tupleLength
  /-- An object. -/
  | object
  /-- An object with the declared attributes and no others. -/
  | attributes
  /-- Nothing but null. -/
  | dynamicNull
  /-- Any value. -/
  | value
deriving DecidableEq, Repr

/-- The words for what was expected. -/
def Expectation.text : Expectation → String
  | string => "a string"
  | bool => "a bool"
  | ratio => "a \"numer/denom\" string"
  | finiteNumber => "a finite number"
  | integer => "an integer"
  | hex => "a hex string"
  | array => "an array"
  | tupleLength => "an array matching the tuple length"
  | object => "an object"
  | attributes => "exactly the declared attributes"
  | dynamicNull => "null for a dynamic type"
  | value => "a value"

/-- A place in a document. -/
inductive Place where
  /-- The version of the form. -/
  | formatVersion
  /-- A part of the value. -/
  | part (path : Path)
deriving DecidableEq, Repr

/-- The words for a place. -/
def Place.text : Place → String
  | formatVersion => "format_version"
  | part [] => "value"
  | part path => path.text

/-- What keeps a document from being written or read. -/
inductive CanonicalError where
  /-- An unknown value cannot be written. -/
  | unknownValue
  /-- The document has the form of another version. -/
  | formatVersion (found : Nat)
  /-- Something else was expected at a place. -/
  | shape (place : Place) (expected : Expectation)
  /-- A number cannot be written or read. -/
  | number (cause : NumberError)
  /-- The text is not JSON, or its type is no type. -/
  | json
  /-- A collection was refused for an element without the declared type. -/
  | element (fault : Value.ElementFault)
deriving DecidableEq, Repr

namespace CanonicalError

/-- The sentence that reports an error. -/
def message : CanonicalError → String
  | unknownValue => "unknown values have no canonical form"
  | formatVersion found => "unsupported canonical format version " ++ toString found
  | shape place expected => place.text ++ ": expected " ++ expected.text
  | number cause => cause.message
  | json => "invalid canonical JSON"
  | element fault => fault.message

/-- The error of something else expected at the value itself. -/
def expected (expected : Expectation) : CanonicalError := shape (.part []) expected

/-- The error of a part, seen from the whole. -/
def under (step : Step) : CanonicalError → CanonicalError
  | shape (.part path) expected => shape (.part (step :: path)) expected
  | error => error

end CanonicalError

end LedgerValue

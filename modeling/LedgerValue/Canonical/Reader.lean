import LedgerValue.Canonical.Writer
import LedgerValue.HostNumber.Rounding
import LedgerValue.Json.Reader
import LedgerValue.Text.Split

/-!
# Reading canonical documents

The value part of a document is read under its type, and everything in it has to be what the type
calls for. Null is a value of every type. The items of lists, maps and tuples are read in the order
of the document and the attributes of an object in the order of their names; the first error is
reported.
-/

namespace LedgerValue.Canonical

/-- The outcome of reading. -/
abbrev Read := Except CanonicalError

/-- Something else was expected at the value itself. -/
def refuse {α : Type} (expected : Expectation) : Read α := .error (.expected expected)

/-- What was found, unless something else was expected. -/
def require {α : Type} (expected : Expectation) : Option α → Read α
  | some found => .ok found
  | none => refuse expected

/-- Takes a sign of either kind off the front. -/
def takeSign : List Char → Bool × List Char
  | '-' :: rest => (true, rest)
  | '+' :: rest => (false, rest)
  | text => (false, text)

/-- Reads an integer: digits after an optional sign, with underscores anywhere but in front. -/
def readInteger? (text : List Char) : Option Int :=
  let (negative, unsigned) := takeSign text
  match unsigned with
  | [] => none
  | '_' :: _ => none
  | unsigned =>
    if unsigned.all fun c => c.isDigit || c == '_' then
      let magnitude : Int := Text.readDigits (unsigned.filter (· != '_'))
      some (if negative then -magnitude else magnitude)
    else none

/-- Reads the two integers around the first slash. -/
def readRatio? (text : List Char) : Option (Int × Int) :=
  match Text.cut (· == '/') text with
  | (_, none) => none
  | (numerator, some denominator) =>
    (readInteger? numerator).bind fun n => (readInteger? denominator).map fun d => (n, d)

/-- Reads a number as a ratio. -/
def readNumber (json : Json) : Read Number :=
  (require .ratio (json.text?.bind fun text => readRatio? text.toList)).bind fun (n, d) =>
  (Number.ofFraction n d).mapError .number

/-- Reads the host number nearest to a ratio. -/
def readHostNumber (json : Json) : Read HostNumber :=
  (readNumber json).bind fun n => require .finiteNumber (HostNumber.ofNumber? n)

/-- Reads the payload of a foreign capsule. -/
def readPayload (json : Json) : Read (List UInt8) :=
  require .hex (json.text?.bind fun text => Text.ofHex? text.toList)

/-- Refuses a list or map whose elements do not have the declared type. -/
def checked (value : Except Value.ElementFault Value) : Read Value := value.mapError .element

mutual

/-- Reads the value part of a document under a type. -/
def readValue (ty : Ty) (json : Json) : Read Value :=
  if json.isNull then .ok (.null ty)
  else
    match ty with
    | .string => (require .string json.text?).map .string
    | .bool => (require .bool json.bool?).map .bool
    | .hostNumber => (readHostNumber json).map .hostNumber
    | .capsule .number => (readNumber json).map .number
    | .capsule .assetAmount =>
      (require .integer json.word?).map fun raw => .amount ⟨Int64.ofInt raw⟩
    | .capsule (.foreign name) => (readPayload json).map (.foreign name)
    | .list element =>
      (require .array json.items?).bind fun items =>
      (eachItem CanonicalError.under (readValue element) 0 items).bind fun values =>
        checked (Value.ofItems element values)
    | .map element =>
      (require .object json.members?).bind fun members =>
      (eachEntry CanonicalError.under (readValue element) members).bind fun entries =>
        checked (Value.ofEntries element (Record.ofList entries))
    | .tuple elements =>
      (require .array json.items?).bind fun items =>
        if items.length = elements.length then (readPositions elements 0 items).map .tuple
        else refuse .tupleLength
    | .object attributes =>
      (require .object json.members?).bind fun members =>
        if members.length = attributes.length then
          (readAttributes attributes members).map .object
        else refuse .attributes
    | .dynamic => refuse .dynamicNull
termination_by structural ty

/-- Reads items under the types of their positions, the first standing at `position`. -/
def readPositions : List Ty → Nat → List Json → Read (List Value)
  | element :: elements, position, item :: items =>
    ((readValue element item).mapError (CanonicalError.under (.position position))).bind
      fun value => (readPositions elements (position + 1) items).map (value :: ·)
  | _, _, _ => .ok []

/-- Reads members under the types of the attributes with their names. -/
def readAttributes : List (String × Ty) → List (String × Json) → Read (List (String × Value))
  | [], _ => .ok []
  | (name, ty) :: attributes, members =>
    match members.lookup name with
    | none => refuse .attributes
    | some member =>
      ((readValue ty member).mapError (CanonicalError.under (.member name))).bind
        fun value => (readAttributes attributes members).map ((name, value) :: ·)

end

/-- Reads a document in which every name stands once. -/
def readDocument (document : Json) : Read Value :=
  match (document.member? "format_version").bind Json.natWord? with
  | none => .error (.shape .formatVersion .integer)
  | some version =>
    if version ≠ formatVersion then .error (.formatVersion version)
    else
      match (document.member? "type").bind Ty.ofJson? with
      | none => .error .json
      | some ty => (require .value (document.member? "value")).bind (readValue ty)

/-- Reads the JSON value of a text, repeated members merged. -/
def readJson (text : String) : Read Json :=
  match Json.read? text.toList with
  | some json => .ok json.mergeRepeated
  | none => .error .json

/-- Reads the text of a document. -/
def read (text : String) : Read Value := (readJson text).bind readDocument

/-- Reads the bytes of a document in UTF-8. -/
def readBytes (bytes : List UInt8) : Read Value :=
  match Text.ofUtf8? bytes with
  | some text => read text
  | none => .error .json

end LedgerValue.Canonical

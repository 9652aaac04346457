import LedgerValue.Conversion.Basic
import LedgerValue.Diagnostic.Basic

/-!
# Indexing

`index` finds an element of a collection by a key. Positions of sequences are whole numbers and
names of entries are texts, and the key is converted to the one or the other. An unknown
collection or key gives an unknown element of the type that is certain by then. Neither a null
collection nor a null key has an element.
-/

namespace LedgerValue

/-- Why a collection has no element for a key. -/
inductive IndexError where
  /-- The collection is null. -/
  | nullCollection
  /-- The key is null. -/
  | nullKey
  /-- The key does not convert. -/
  | invalidKey (cause : ConversionError)
  /-- The key of a sequence is not whole. -/
  | fractional
  /-- There is no element at the key. -/
  | notFound
  /-- The value is no collection. -/
  | unsupported
deriving DecidableEq, Repr

namespace IndexError

/-- The kind of an error. -/
def code : IndexError → DiagnosticCode
  | nullCollection => .indexOnNull
  | nullKey => .nullIndexKey
  | invalidKey _ => .invalidIndexKey
  | fractional => .fractionalIndex
  | notFound => .indexNotFound
  | unsupported => .unsupportedIndexTarget

/-- An error in a few words. -/
def summary : IndexError → String
  | nullCollection => "Attempt to index null value"
  | _ => "Invalid index"

/-- The words for a key without an element. -/
def noElement : String :=
  "The given key does not identify an element in this collection value"

/-- An error in a sentence. -/
def detail : IndexError → String
  | nullCollection => "This value is null, so it does not have any indices."
  | nullKey => "Can't use a null value as an indexing key."
  | invalidKey cause => noElement ++ ": " ++ cause.message ++ "."
  | fractional =>
    noElement ++ ": indexing a sequence requires a whole number, but the given index has a "
      ++ "fractional part."
  | notFound => noElement ++ "."
  | unsupported => "This value does not have any indices."

/-- The report of an error at a place. -/
def diagnostic (error : IndexError) (subject : Option SourceRange) : Diagnostic :=
  { severity := .error, code := error.code, summary := error.summary, detail := error.detail,
    subject }

end IndexError

/-- The outcome of indexing. -/
abbrev Indexed := Except IndexError

namespace Indexing

/-- Where the key of a sequence points. -/
inductive Target where
  /-- The key is not known. -/
  | unknown
  /-- A whole number that is no position. -/
  | nowhere
  /-- A position. -/
  | at (position : Nat)
deriving DecidableEq, Repr

/-- Converts the key of a sequence. -/
def target (key : Value) : Indexed Target :=
  ((convert key .number).mapError .invalidKey).bind fun converted =>
    match converted with
    | .number n =>
      if n.isWhole then .ok (n.toPosition?.elim .nowhere .at) else .error .fractional
    | _ => .ok .unknown

/-- Converts the key of named entries; none when it is not known. -/
def name (key : Value) : Indexed (Option String) :=
  ((convert key .string).mapError .invalidKey).map Value.text?

/-- The element found, if one was. -/
def found : Option Value → Indexed Value
  | some element => .ok element
  | none => .error .notFound

/-- The element of a list. -/
def ofList (element : Ty) (collection : Value) (target : Target) : Indexed Value :=
  match collection, target with
  | .list _ _, .nowhere => .error .notFound
  | .list _ items, .at position => found items[position]?
  | _, _ => .ok (.unknown element)

/-- The element of a tuple. Its type tells which positions there are even if it is unknown. -/
def ofTuple (elements : List Ty) (collection : Value) (target : Target) : Indexed Value :=
  match target with
  | .unknown => .ok .dynamic
  | .nowhere => .error .notFound
  | .at position =>
    match elements[position]?, collection with
    | none, _ => .error .notFound
    | some _, .tuple items => found items[position]?
    | some element, _ => .ok (.unknown element)

/-- The entry of a map. -/
def ofMap (element : Ty) (collection : Value) (name : Option String) : Indexed Value :=
  match collection, name with
  | .map _ entries, some name => found (entries.lookup name)
  | _, _ => .ok (.unknown element)

/-- The attribute of an object. -/
def ofObject (collection : Value) (name : Option String) : Indexed Value :=
  match collection, name with
  | .object attributes, some name => found (attributes.lookup name)
  | _, _ => .ok .dynamic

end Indexing

/-- The element of a collection for a key. -/
def index (collection key : Value) : Indexed Value :=
  if collection.isNull then .error .nullCollection
  else if key.isNull then .error .nullKey
  else if collection.ty.isDynamic || key.ty.isDynamic then .ok .dynamic
  else
    match collection.ty with
    | .list element => (Indexing.target key).bind (Indexing.ofList element collection)
    | .tuple elements => (Indexing.target key).bind (Indexing.ofTuple elements collection)
    | .map element => (Indexing.name key).bind (Indexing.ofMap element collection)
    | .object _ => (Indexing.name key).bind (Indexing.ofObject collection)
    | _ => .error .unsupported

end LedgerValue

import LedgerValue.Json.Numeral

/-!
# JSON documents

A document is a JSON text taken apart without judging what its leaves denote: numerals are kept as
written, and a string that has an unpaired surrogate escape has no text. `Document.toJson?` passes
judgement: it refuses strings without text, decimals out of range and nesting beyond a bound, and
leaves repeated members as they stand.
-/

namespace LedgerValue.Json

/-- A JSON text taken apart. -/
inductive Document where
  /-- The null literal. -/
  | null
  /-- A truth literal. -/
  | bool (value : Bool)
  /-- A number as it is written. -/
  | number (numeral : Numeral)
  /-- A string, with its text if its surrogate escapes are paired. -/
  | string (text : Option String)
  /-- A sequence. -/
  | array (items : List Document)
  /-- Named members, repeated names included. -/
  | object (members : List (Option String × Document))

namespace Document

mutual

/-- The value of a document whose arrays and objects nest no deeper than `depth`. -/
def toJson? (depth : Nat) : Document → Option Json
  | null => some .null
  | bool value => some (.bool value)
  | number numeral => numeral.toJson?
  | string text => text.map .string
  | array items =>
    match depth with
    | 0 => none
    | depth + 1 => (toItems? depth items).map .array
  | object members =>
    match depth with
    | 0 => none
    | depth + 1 => (toMembers? depth members).map .object

/-- The values of all items. -/
def toItems? (depth : Nat) : List Document → Option (List Json)
  | [] => some []
  | item :: rest =>
    (toJson? depth item).bind fun value => (toItems? depth rest).map (value :: ·)

/-- The names and values of all members. -/
def toMembers? (depth : Nat) : List (Option String × Document) → Option (List (String × Json))
  | [] => some []
  | (name, member) :: rest =>
    name.bind fun name =>
    (toJson? depth member).bind fun value => (toMembers? depth rest).map ((name, value) :: ·)

end

end Document

end LedgerValue.Json

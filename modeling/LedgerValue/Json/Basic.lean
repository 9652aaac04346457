import LedgerValue.Word

/-!
# JSON values

A JSON value keeps the members of an object in the order in which they stand, repeated names
included, until `mergeRepeated` leaves every name once. A number is an integer of a 64-bit word,
signed or unsigned, or some other decimal, of which only the text is kept.
-/

namespace LedgerValue

/-- A JSON value. -/
inductive Json where
  /-- The null value. -/
  | null
  /-- A truth value. -/
  | bool (value : Bool)
  /-- An integer written without point and exponent. -/
  | integer (value : Int)
  /-- Any other number, as it is written. -/
  | decimal (literal : String)
  /-- A text. -/
  | string (text : String)
  /-- A sequence. -/
  | array (items : List Json)
  /-- Named members. -/
  | object (members : List (String × Json))

namespace Json

/-- Gives a member a value: in its place if the name stands already, at the end otherwise. -/
def putMember (name : String) (value : Json) : List (String × Json) → List (String × Json)
  | [] => [(name, value)]
  | (other, held) :: rest =>
    if other = name then (other, value) :: rest else (other, held) :: putMember name value rest

mutual

/-- Leaves every name of every object once, at its first place and with its last value. -/
def mergeRepeated : Json → Json
  | array items => array (mergeItems items)
  | object members => object (mergeMembers [] members)
  | other => other

/-- Merges within each item. -/
def mergeItems : List Json → List Json
  | [] => []
  | item :: rest => mergeRepeated item :: mergeItems rest

/-- Adds merged members to those before them. -/
def mergeMembers (before : List (String × Json)) : List (String × Json) → List (String × Json)
  | [] => before
  | (name, value) :: rest => mergeMembers (putMember name (mergeRepeated value) before) rest

end

/-- The value is null. -/
def isNull : Json → Bool
  | null => true
  | _ => false

/-- The text of a string. -/
def text? : Json → Option String
  | string text => some text
  | _ => none

/-- The truth value of a bool. -/
def bool? : Json → Option Bool
  | bool value => some value
  | _ => none

/-- The integer as a signed 64-bit word. -/
def word? : Json → Option Int
  | integer value => Word.signed? value
  | _ => none

/-- The integer as an unsigned 64-bit word. -/
def natWord? : Json → Option Nat
  | integer value => Word.unsigned? value
  | _ => none

/-- The items of an array. -/
def items? : Json → Option (List Json)
  | array items => some items
  | _ => none

/-- The members of an object. -/
def members? : Json → Option (List (String × Json))
  | object members => some members
  | _ => none

/-- The first member of an object with a name. -/
def member? (name : String) : Json → Option Json
  | object members => members.lookup name
  | _ => none

end Json

end LedgerValue

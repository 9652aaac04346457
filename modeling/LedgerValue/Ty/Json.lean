import LedgerValue.Json.Basic
import LedgerValue.Ty.Basic

/-!
# Types as JSON

A simple type is written as its name, any other as an object with its name for the only member.
The reader also takes a simple type as the name of a null member.
-/

namespace LedgerValue

/-- A kind of capsule as JSON. -/
def Capsule.toJson : Capsule → Json
  | number => .string "number"
  | assetAmount => .string "asset_amount"
  | foreign name => .object [("opaque", .string name)]

/-- Reads a kind of capsule. -/
def Capsule.ofJson? : Json → Option Capsule
  | .string name =>
    if name = "number" then some number
    else if name = "asset_amount" then some assetAmount
    else none
  | .object [(name, payload)] =>
    if name = "opaque" then payload.text?.map foreign
    else if name = "number" && payload.isNull then some number
    else if name = "asset_amount" && payload.isNull then some assetAmount
    else none
  | _ => none

namespace Ty

mutual

/-- A type as JSON. -/
def toJson : Ty → Json
  | string => .string "string"
  | bool => .string "bool"
  | hostNumber => .string "host_number"
  | list element => .object [("list", toJson element)]
  | map element => .object [("map", toJson element)]
  | tuple elements => .object [("tuple", .array (elementsToJson elements))]
  | object attributes => .object [("object", .object (attributesToJson attributes))]
  | capsule kind => .object [("capsule", kind.toJson)]
  | dynamic => .string "dynamic"

/-- Some types as JSON. -/
def elementsToJson : List Ty → List Json
  | [] => []
  | element :: rest => toJson element :: elementsToJson rest

/-- Named types as JSON. -/
def attributesToJson : List (String × Ty) → List (String × Json)
  | [] => []
  | (name, ty) :: rest => (name, toJson ty) :: attributesToJson rest

end

/-- The simple type of a name. -/
def ofName? (name : String) : Option Ty :=
  if name = "string" then some string
  else if name = "bool" then some bool
  else if name = "host_number" then some hostNumber
  else if name = "dynamic" then some dynamic
  else none

mutual

/-- Reads a type. -/
def ofJson? : Json → Option Ty
  | .string name => ofName? name
  | .object [(name, payload)] =>
    if name = "list" then (ofJson? payload).map list
    else if name = "map" then (ofJson? payload).map map
    else if name = "tuple" then (elementsOfJson? payload).map tuple
    else if name = "object" then (attributesOfJson? payload).map objectOf
    else if name = "capsule" then (Capsule.ofJson? payload).map capsule
    else if payload.isNull then ofName? name
    else none
  | _ => none

/-- Reads an array of types. -/
def elementsOfJson? : Json → Option (List Ty)
  | .array items => itemsOfJson? items
  | _ => none

/-- Reads some types. -/
def itemsOfJson? : List Json → Option (List Ty)
  | [] => some []
  | item :: rest => (ofJson? item).bind fun element => (itemsOfJson? rest).map (element :: ·)

/-- Reads an object of types. -/
def attributesOfJson? : Json → Option (List (String × Ty))
  | .object members => membersOfJson? members
  | _ => none

/-- Reads named types. -/
def membersOfJson? : List (String × Json) → Option (List (String × Ty))
  | [] => some []
  | (name, member) :: rest =>
    (ofJson? member).bind fun ty => (membersOfJson? rest).map ((name, ty) :: ·)

end

end Ty

end LedgerValue

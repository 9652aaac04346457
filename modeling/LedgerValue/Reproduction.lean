import LedgerValue.HostNumber.Text
import LedgerValue.Number.Decimal
import LedgerValue.Value.Basic

/-!
# Reproductions

A type or a value written as the expression that builds it again, for reports that can be pasted
back. A number that is no word is spelled with its default rendering, and so only approximately.
-/

namespace LedgerValue

namespace Reproduction

/-- Parts one after the other, parted by a comma and a blank. -/
def joined : List (List Char) → List Char
  | [] => []
  | [part] => part
  | part :: next :: rest => part ++ ',' :: ' ' :: joined (next :: rest)

/-- A function applied to some arguments. -/
def applied (function : String) (arguments : List (List Char)) : List Char :=
  function.toList ++ '(' :: joined arguments ++ [')']

/-- A sequence of arguments. -/
def sequence (parts : List (List Char)) : List Char :=
  "vec![".toList ++ joined parts ++ [']']

/-- A table of pairs. -/
def table (pairs : List (List Char)) : List Char :=
  '[' :: joined pairs ++ [']']

/-- A pair. -/
def pair (left right : List Char) : List Char :=
  '(' :: joined [left, right] ++ [')']

/-- A quoted text. -/
def quoted (text : String) : List Char := Text.quotedChars text.toList

mutual

/-- The expression that builds a type. -/
def ofTy : Ty → List Char
  | .string => "Type::String".toList
  | .bool => "Type::Bool".toList
  | .hostNumber => "Type::HostNumber".toList
  | .dynamic => "Type::Dynamic".toList
  | .list element => applied "Type::list" [ofTy element]
  | .map element => applied "Type::map" [ofTy element]
  | .tuple elements => applied "Type::tuple" [sequence (ofElements elements)]
  | .object attributes => applied "Type::object" [table (ofTyAttributes attributes)]
  | .capsule .number => "Type::NUMBER".toList
  | .capsule .assetAmount => "Type::ASSET_AMOUNT".toList
  | .capsule (.foreign name) => applied "Type::opaque" [quoted name]

/-- The expressions that build some types. -/
def ofElements : List Ty → List (List Char)
  | [] => []
  | element :: rest => ofTy element :: ofElements rest

/-- The pairs of names and types of some attributes. -/
def ofTyAttributes : List (String × Ty) → List (List Char)
  | [] => []
  | (name, ty) :: rest => pair (quoted name) (ofTy ty) :: ofTyAttributes rest

end

/-- The expression that builds a number. -/
def ofNumber (n : Number) : List Char :=
  if n = 0 then "Number::zero()".toList
  else
    match n.toWord? with
    | some word => applied "Number::from_i64" [Text.signedDigits word]
    | none =>
      applied "Number::must_parse" [Text.quotedChars (n.renderChars Number.defaultPlaces)]

mutual

/-- The expression that builds a value. -/
def ofValue : Value → List Char
  | .null ty => applied "Value::null" [ofTy ty]
  | .unknown .dynamic => applied "Value::dynamic" []
  | .unknown ty => applied "Value::unknown" [ofTy ty]
  | .string text => applied "Value::string" [quoted text]
  | .bool value => applied "Value::bool" [(if value then "true" else "false").toList]
  | .hostNumber value => applied "Value::host_number" [value.marked]
  | .number value => applied "Value::number" [ofNumber value]
  | .amount value =>
    applied "Value::asset_amount" [applied "AssetAmount::new" [Text.signedDigits value.raw.toInt]]
  | .list element items => applied "Value::list" [ofTy element, sequence (ofItems items)]
  | .map element entries =>
    applied "Value::map" [ofTy element, applied "BTreeMap::from" [table (ofEntries entries)]]
  | .tuple items => applied "Value::tuple" [sequence (ofItems items)]
  | .object attributes => applied "Value::object" [table (ofAttributes attributes)]
  | .foreign capsule payload =>
    applied "Value::opaque"
      [quoted capsule, sequence (payload.map fun byte => Text.digits byte.toNat)]

/-- The expressions that build some values. -/
def ofItems : List Value → List (List Char)
  | [] => []
  | item :: rest => ofValue item :: ofItems rest

/-- The pairs of keys, made into texts of their own, and values of some entries. -/
def ofEntries : List (String × Value) → List (List Char)
  | [] => []
  | (key, value) :: rest =>
    pair (quoted key ++ ".to_string()".toList) (ofValue value) :: ofEntries rest

/-- The pairs of names and values of some attributes. -/
def ofAttributes : List (String × Value) → List (List Char)
  | [] => []
  | (name, value) :: rest => pair (quoted name) (ofValue value) :: ofAttributes rest

end

end Reproduction

/-- The expression that builds a type, as a string. -/
def Ty.reproduction (ty : Ty) : String := String.ofList (Reproduction.ofTy ty)

/-- The expression that builds a number, as a string. -/
def Number.reproduction (n : Number) : String := String.ofList (Reproduction.ofNumber n)

/-- The expression that builds a value, as a string. -/
def Value.reproduction (value : Value) : String := String.ofList (Reproduction.ofValue value)

end LedgerValue

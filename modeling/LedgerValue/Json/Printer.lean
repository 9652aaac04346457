import LedgerValue.Json.Basic
import LedgerValue.Text.Digits
import LedgerValue.Text.Hex

/-!
# JSON text

The compact text of a JSON value: no blanks, members in their order, and in strings an escape for
the quote, the backslash and the controls only.
-/

namespace LedgerValue.Json

/-- One character inside a string. -/
def stringChar (c : Char) : List Char :=
  if c = '"' then ['\\', '"']
  else if c = '\\' then ['\\', '\\']
  else if c = '\x08' then ['\\', 'b']
  else if c = '\x0c' then ['\\', 'f']
  else if c = '\n' then ['\\', 'n']
  else if c = '\r' then ['\\', 'r']
  else if c = '\t' then ['\\', 't']
  else if c.toNat < 0x20 then
    ['\\', 'u', '0', '0', Text.hexDigit (c.toNat / 16), Text.hexDigit (c.toNat % 16)]
  else [c]

/-- A string between its quotes. -/
def stringChars (text : String) : List Char :=
  '"' :: text.toList.flatMap stringChar ++ ['"']

mutual

/-- The compact text of a value. -/
def chars : Json → List Char
  | null => ['n', 'u', 'l', 'l']
  | bool true => ['t', 'r', 'u', 'e']
  | bool false => ['f', 'a', 'l', 's', 'e']
  | integer value => Text.signedDigits value
  | decimal literal => literal.toList
  | string text => stringChars text
  | array items => '[' :: itemChars items ++ [']']
  | object members => '\x7b' :: memberChars members ++ ['\x7d']

/-- Items parted by commas. -/
def itemChars : List Json → List Char
  | [] => []
  | [item] => chars item
  | item :: next :: rest => chars item ++ ',' :: itemChars (next :: rest)

/-- Members parted by commas. -/
def memberChars : List (String × Json) → List Char
  | [] => []
  | [(name, value)] => stringChars name ++ ':' :: chars value
  | (name, value) :: next :: rest =>
    stringChars name ++ ':' :: chars value ++ ',' :: memberChars (next :: rest)

end

/-- The compact text of a value as a string. -/
def print (json : Json) : String := String.ofList json.chars

end LedgerValue.Json

import LedgerValue.Json.Document
import LedgerValue.Text.Hex
import LedgerValue.Text.Split

/-!
# Reading JSON text

The grammar of RFC 8259: values with blanks around them and nothing after. Every reader takes a
list of characters and returns what it read with the characters that are left. `Json.read?` reads a
whole text within the bound on nesting.
-/

namespace LedgerValue.Json

namespace Document

/-- The blanks that may stand between the parts of a text. -/
def isBlank (c : Char) : Bool := c == ' ' || c == '\t' || c == '\n' || c == '\r'

/-- Drops the blanks in front. -/
def skipBlanks (text : List Char) : List Char := text.dropWhile isBlank

/-- Reads digits, at least one. -/
def readDigits? (text : List Char) : Option (List Char × List Char) :=
  let ds := text.takeWhile Char.isDigit
  if ds.isEmpty then none else some (ds, text.dropWhile Char.isDigit)

/-- Reads the digits before the point: zero alone, or digits that do not start with zero. -/
def readWhole? : List Char → Option (List Char × List Char)
  | '0' :: rest => some (['0'], rest)
  | text => readDigits? text

/-- Reads the digits after a point, none without a point. -/
def readFraction? : List Char → Option (List Char × List Char)
  | '.' :: rest => readDigits? rest
  | text => some ([], text)

/-- Reads the exponent after its mark. -/
def readExponentDigits? : List Char → Option ((Bool × List Char) × List Char)
  | '-' :: rest => (readDigits? rest).map fun (ds, left) => ((true, ds), left)
  | '+' :: rest => (readDigits? rest).map fun (ds, left) => ((false, ds), left)
  | text => (readDigits? text).map fun (ds, left) => ((false, ds), left)

/-- Reads an exponent, if there is one. -/
def readExponent? : List Char → Option (Option (Bool × List Char) × List Char)
  | 'e' :: rest => (readExponentDigits? rest).map fun (exponent, left) => (some exponent, left)
  | 'E' :: rest => (readExponentDigits? rest).map fun (exponent, left) => (some exponent, left)
  | text => some (none, text)

/-- Reads a number. -/
def readNumeral? (text : List Char) : Option (Numeral × List Char) :=
  let (negative, unsigned) := Text.takeMinus text
  (readWhole? unsigned).bind fun (whole, afterWhole) =>
  (readFraction? afterWhole).bind fun (fraction, afterFraction) =>
  (readExponent? afterFraction).map fun (exponent, left) =>
    ({ negative, whole, fraction, exponent,
       spelling := text.take (text.length - left.length) }, left)

/-- The number that four hexadecimal digits stand for. -/
def fourDigits? (a b c d : Char) : Option Nat :=
  (Text.hexValue? a).bind fun a => (Text.hexValue? b).bind fun b =>
  (Text.hexValue? c).bind fun c => (Text.hexValue? d).map fun d => ((a * 16 + b) * 16 + c) * 16 + d

/-- The code point of an escape by one letter. -/
def letterEscape? : Char → Option Nat
  | '"' => some 0x22
  | '\\' => some 0x5C
  | '/' => some 0x2F
  | 'b' => some 0x08
  | 'f' => some 0x0C
  | 'n' => some 0x0A
  | 'r' => some 0x0D
  | 't' => some 0x09
  | _ => none

/-- Reads the inside of a string up to its closing quote: code points, and halves of surrogate
pairs. -/
def readUnits? : List Char → Option (List Nat × List Char)
  | [] => none
  | '"' :: rest => some ([], rest)
  | '\\' :: 'u' :: a :: b :: c :: d :: rest =>
    (fourDigits? a b c d).bind fun unit =>
    (readUnits? rest).map fun (units, left) => (unit :: units, left)
  | '\\' :: letter :: rest =>
    (letterEscape? letter).bind fun unit =>
    (readUnits? rest).map fun (units, left) => (unit :: units, left)
  | c :: rest =>
    if c == '\\' || c.toNat < 0x20 then none
    else (readUnits? rest).map fun (units, left) => (c.toNat :: units, left)

/-- The unit is the first half of a surrogate pair. -/
def isLeading (unit : Nat) : Bool := 0xD800 ≤ unit && unit < 0xDC00

/-- The unit is the second half of a surrogate pair. -/
def isTrailing (unit : Nat) : Bool := 0xDC00 ≤ unit && unit < 0xE000

/-- The characters of some units, if every half of a surrogate pair has its other half. -/
def joinUnits? : List Nat → Option (List Char)
  | [] => some []
  | [unit] => if isLeading unit || isTrailing unit then none else some [Char.ofNat unit]
  | unit :: next :: rest =>
    if isLeading unit then
      if isTrailing next then
        (joinUnits? rest).map
          (Char.ofNat (0x10000 + (unit - 0xD800) * 0x400 + (next - 0xDC00)) :: ·)
      else none
    else if isTrailing unit then none
    else (joinUnits? (next :: rest)).map (Char.ofNat unit :: ·)

/-- Reads a string after its opening quote. -/
def readString? (text : List Char) : Option (Option String × List Char) :=
  (readUnits? text).map fun (units, left) => ((joinUnits? units).map String.ofList, left)

mutual

/-- Reads a value after blanks. The fuel bounds the number of steps. -/
def readValue? : Nat → List Char → Option (Document × List Char)
  | 0, _ => none
  | fuel + 1, text =>
    match skipBlanks text with
    | 'n' :: 'u' :: 'l' :: 'l' :: rest => some (.null, rest)
    | 't' :: 'r' :: 'u' :: 'e' :: rest => some (.bool true, rest)
    | 'f' :: 'a' :: 'l' :: 's' :: 'e' :: rest => some (.bool false, rest)
    | '"' :: rest => (readString? rest).map fun (text, left) => (.string text, left)
    | '[' :: rest =>
      match skipBlanks rest with
      | ']' :: left => some (.array [], left)
      | inside => (readItems? fuel inside).map fun (items, left) => (.array items, left)
    | '\x7b' :: rest =>
      match skipBlanks rest with
      | '\x7d' :: left => some (.object [], left)
      | inside => (readMembers? fuel inside).map fun (members, left) => (.object members, left)
    | other => (readNumeral? other).map fun (numeral, left) => (.number numeral, left)

/-- Reads items parted by commas up to the closing bracket. -/
def readItems? : Nat → List Char → Option (List Document × List Char)
  | 0, _ => none
  | fuel + 1, text =>
    (readValue? fuel text).bind fun (item, afterItem) =>
      match skipBlanks afterItem with
      | ']' :: left => some ([item], left)
      | ',' :: rest => (readItems? fuel rest).map fun (items, left) => (item :: items, left)
      | _ => none

/-- Reads members parted by commas up to the closing brace. -/
def readMembers? : Nat → List Char → Option (List (Option String × Document) × List Char)
  | 0, _ => none
  | fuel + 1, text =>
    match skipBlanks text with
    | '"' :: afterQuote =>
      (readString? afterQuote).bind fun (name, afterName) =>
        match skipBlanks afterName with
        | ':' :: afterColon =>
          (readValue? fuel afterColon).bind fun (value, afterValue) =>
            match skipBlanks afterValue with
            | '\x7d' :: left => some ([(name, value)], left)
            | ',' :: rest =>
              (readMembers? fuel rest).map fun (members, left) => ((name, value) :: members, left)
            | _ => none
        | _ => none
    | _ => none

end

/-- Takes a whole text apart. Every character costs at most two steps. -/
def read? (text : List Char) : Option Document :=
  (readValue? (2 * text.length + 2) text).bind fun (document, left) =>
    if (skipBlanks left).isEmpty then some document else none

end Document

/-- The deepest nesting of arrays and objects that is read. -/
def maxDepth : Nat := 127

/-- The value of a whole text, repeated members left as they stand. -/
def read? (text : List Char) : Option Json :=
  (Document.read? text).bind (Document.toJson? maxDepth)

end LedgerValue.Json

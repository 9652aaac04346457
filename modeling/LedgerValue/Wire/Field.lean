import LedgerValue.Wire.Varint

/-!
# Fields of a message

A message is a sequence of fields, each a number and a payload: a word, some bytes, or something
of a fixed width or a group, which no message here uses and which are only checked and passed
over. `read?` takes a message apart, and `write` puts words and bytes together.
-/

namespace LedgerValue.Wire

/-- How a payload is laid out. -/
inductive Layout where
  /-- A word of variable length. -/
  | word
  /-- Eight bytes. -/
  | eightBytes
  /-- Bytes after their count. -/
  | bytes
  /-- Fields up to the end of the group. -/
  | groupStart
  /-- The end of a group. -/
  | groupEnd
  /-- Four bytes. -/
  | fourBytes
deriving DecidableEq, Repr

/-- The layout of a code. -/
def Layout.ofCode? : Nat → Option Layout
  | 0 => some word
  | 1 => some eightBytes
  | 2 => some bytes
  | 3 => some groupStart
  | 4 => some groupEnd
  | 5 => some fourBytes
  | _ => none

/-- What a field holds. -/
inductive Payload where
  /-- A word. -/
  | word (value : Nat)
  /-- Some bytes. -/
  | bytes (content : List UInt8)
  /-- Something that is passed over. -/
  | other
deriving DecidableEq, Repr

/-- A field. -/
structure Field where
  /-- The number of the field. -/
  number : Nat
  /-- What it holds. -/
  payload : Payload
deriving DecidableEq, Repr

namespace Field

/-- Reads the number and the layout of a field. -/
def readKey? (input : List UInt8) : Option ((Nat × Layout) × List UInt8) :=
  (Varint.read? input).bind fun (key, rest) =>
    if key < 0x100000000 && 8 ≤ key then
      (Layout.ofCode? (key % 8)).map fun layout => ((key / 8, layout), rest)
    else none

/-- Drops some bytes, if there are as many. -/
def drop? (count : Nat) (input : List UInt8) : Option (List UInt8) :=
  if count ≤ input.length then some (input.drop count) else none

/-- Reads a count and as many bytes. -/
def readBytes? (input : List UInt8) : Option (List UInt8 × List UInt8) :=
  (Varint.read? input).bind fun (count, rest) =>
    if count ≤ rest.length then some (rest.take count, rest.drop count) else none

/-- Passes over fields until all open groups have ended, the innermost first. No more groups may be
open than `depth` when a field is passed over. The fuel bounds the number of fields. -/
def skipGroups? (depth : Nat) : Nat → List Nat → List UInt8 → Option (List UInt8)
  | _, [], input => some input
  | 0, _ :: _, _ => none
  | fuel + 1, innermost :: outer, input =>
    (readKey? input).bind fun ((number, layout), rest) =>
      match layout with
      | .groupEnd => if number = innermost then skipGroups? depth fuel outer rest else none
      | layout =>
        if depth ≤ outer.length + 1 then none
        else
          match layout with
          | .groupStart => skipGroups? depth fuel (number :: innermost :: outer) rest
          | .word =>
            (Varint.read? rest).bind fun (_, left) =>
              skipGroups? depth fuel (innermost :: outer) left
          | .bytes =>
            (readBytes? rest).bind fun (_, left) =>
              skipGroups? depth fuel (innermost :: outer) left
          | .eightBytes => (drop? 8 rest).bind (skipGroups? depth fuel (innermost :: outer))
          | _ => (drop? 4 rest).bind (skipGroups? depth fuel (innermost :: outer))

/-- Reads a field in a message whose groups may nest as deep as given. -/
def readOne? (depth : Nat) (input : List UInt8) : Option (Field × List UInt8) :=
  (readKey? input).bind fun ((number, layout), rest) =>
    match layout with
    | .word => (Varint.read? rest).map fun (value, left) => (⟨number, .word value⟩, left)
    | .bytes => (readBytes? rest).map fun (content, left) => (⟨number, .bytes content⟩, left)
    | .eightBytes => (drop? 8 rest).map fun left => (⟨number, .other⟩, left)
    | .fourBytes => (drop? 4 rest).map fun left => (⟨number, .other⟩, left)
    | .groupStart =>
      if depth = 0 then none
      else (skipGroups? depth rest.length [number] rest).map fun left => (⟨number, .other⟩, left)
    | .groupEnd => none

/-- Reads fields up to the end. The fuel bounds their number. -/
def readAll? (depth : Nat) : Nat → List UInt8 → Option (List Field)
  | _, [] => some []
  | 0, _ :: _ => none
  | fuel + 1, input =>
    (readOne? depth input).bind fun (field, rest) =>
      (readAll? depth fuel rest).map (field :: ·)

/-- Takes a message apart. Every field has a byte at least. -/
def read? (depth : Nat) (input : List UInt8) : Option (List Field) :=
  readAll? depth input.length input

/-- The bytes of a field of a word or of bytes. -/
def write (field : Field) : List UInt8 :=
  match field.payload with
  | .word value => Varint.write (8 * field.number) ++ Varint.write value
  | .bytes content =>
    Varint.write (8 * field.number + 2) ++ Varint.write content.length ++ content
  | .other => []

/-- The bytes of some fields. -/
def writeAll (fields : List Field) : List UInt8 := fields.flatMap write

end Field

end LedgerValue.Wire

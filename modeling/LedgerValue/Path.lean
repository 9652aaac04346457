import LedgerValue.Text.Quoted
import LedgerValue.Text.Digits

/-!
# Paths

A path leads from a value to a part of it, one step for each level, the outermost first. Two
traversals treat the parts of a collection in turn and put the step to the part into the first
error.
-/

namespace LedgerValue

/-- One step into a value. -/
inductive Step where
  /-- To the item at a position. -/
  | position (index : Nat)
  /-- To the entry of a key. -/
  | key (name : String)
  /-- To an attribute. -/
  | member (name : String)
deriving DecidableEq, Repr

/-- A step as it is written. -/
def Step.chars : Step → List Char
  | position index => '[' :: Text.digits index ++ [']']
  | key name => '[' :: Text.quotedChars name.toList ++ [']']
  | member name => '.' :: name.toList

/-- A step as a string. -/
def Step.text (step : Step) : String := String.ofList step.chars

/-- A path: its steps from the outside in. -/
abbrev Path := List Step

/-- The steps of a path written one after the other. -/
def Path.chars (path : Path) : List Char := path.flatMap Step.chars

/-- A path as a string. -/
def Path.text (path : Path) : String := String.ofList path.chars

section Traversal

variable {α β ε : Type}

/-- Treats some items in turn, the first standing at `position`. -/
def eachItem (under : Step → ε → ε) (f : α → Except ε β) (position : Nat) :
    List α → Except ε (List β)
  | [] => .ok []
  | item :: rest =>
    ((f item).mapError (under (.position position))).bind fun treated =>
    (eachItem under f (position + 1) rest).map (treated :: ·)

/-- Treats the values of some entries in turn and keeps the keys. -/
def eachEntry (under : Step → ε → ε) (f : α → Except ε β) :
    List (String × α) → Except ε (List (String × β))
  | [] => .ok []
  | (key, value) :: rest =>
    ((f value).mapError (under (.key key))).bind fun treated =>
    (eachEntry under f rest).map ((key, treated) :: ·)

end Traversal

@[simp]
theorem Path.chars_cons (step : Step) (path : Path) :
    Path.chars (step :: path) = step.chars ++ Path.chars path :=
  List.flatMap_cons

@[simp]
theorem Path.text_cons (step : Step) (path : Path) :
    Path.text (step :: path) = step.text ++ path.text := by
  rw [text, chars_cons, String.ofList_append]
  rfl

theorem Path.text_singleton (step : Step) : Path.text [step] = step.text := by
  rw [text, chars_cons]
  exact congrArg String.ofList (List.append_nil step.chars)

end LedgerValue

import LedgerValue.Ty.Basic

/-!
# Conversion rules

A rule says how the values of one type become values of another. `Rule.find?` looks one up for two
types: first by the target, then by the source, and for collections also by the types of their
parts. Equal types need no rule. Main statements: no rule leads from a type to itself
(`find?_self`), and one leads from every other type to the dynamic type (`find?_dynamic`).
-/

namespace LedgerValue

/-- The sources that have a rule of their own to the exact numbers. -/
inductive NumberSource where
  /-- The host's numbers. -/
  | hostNumber
  /-- Decimal literals. -/
  | string
  /-- Amounts of an asset. -/
  | assetAmount
deriving DecidableEq, Repr

/-- The source of exact numbers that a type is. -/
def NumberSource.ofTy? : Ty → Option NumberSource
  | .hostNumber => some hostNumber
  | .string => some string
  | .assetAmount => some assetAmount
  | _ => none

/-- A rule of conversion. -/
inductive Rule where
  /-- A source of exact numbers becomes one. -/
  | toNumber (source : NumberSource)
  /-- Anything stays as it is where any type will do. -/
  | toDynamic
  /-- A value of no known type takes any type. -/
  | fromDynamic
  /-- Decimal or exponent notation becomes a host number. -/
  | stringToHostNumber
  /-- The words for truth and falsehood become a truth value. -/
  | stringToBool
  /-- A host number becomes its plain spelling. -/
  | hostNumberToString
  /-- A truth value becomes its word. -/
  | boolToString
  /-- Each item of a list takes the new element type. -/
  | listToList
  /-- Each item of a tuple takes the one element type. -/
  | tupleToList
  /-- Each entry of a map takes the new element type. -/
  | mapToMap
  /-- Each attribute of an object becomes an entry of the one element type. -/
  | objectToMap
  /-- Each item of a tuple takes the type of its position. -/
  | tupleToTuple
  /-- Each item of a list takes the type of its position. -/
  | listToTuple
  /-- Each wanted attribute takes its type, and the others are dropped. -/
  | objectToObject
deriving DecidableEq, Repr

namespace Rule

/-- A part can take its place: its type is the wanted one already, or a rule leads there. -/
def fits (source target : Ty) (rule : Option Rule) : Bool :=
  source = target || rule.isSome

mutual

/-- The rule that leads from one type to another. -/
def find? (source target : Ty) : Option Rule :=
  if source = target then none
  else
    match target with
    | .capsule .number => (NumberSource.ofTy? source).map toNumber
    | .dynamic => some toDynamic
    | .capsule _ =>
      match source with
      | .dynamic => some fromDynamic
      | _ => none
    | .string =>
      match source with
      | .dynamic => some fromDynamic
      | .hostNumber => some hostNumberToString
      | .bool => some boolToString
      | _ => none
    | .bool =>
      match source with
      | .dynamic => some fromDynamic
      | .string => some stringToBool
      | _ => none
    | .hostNumber =>
      match source with
      | .dynamic => some fromDynamic
      | .string => some stringToHostNumber
      | _ => none
    | .list element =>
      match source with
      | .dynamic => some fromDynamic
      | .list item => if fits item element (find? item element) then some listToList else none
      | .tuple items =>
        if items.all fun item => fits item element (find? item element) then some tupleToList
        else none
      | _ => none
    | .map element =>
      match source with
      | .dynamic => some fromDynamic
      | .map entry => if fits entry element (find? entry element) then some mapToMap else none
      | .object attributes =>
        if attributes.all fun entry => fits entry.2 element (find? entry.2 element) then
          some objectToMap
        else none
      | _ => none
    | .tuple elements =>
      match source with
      | .dynamic => some fromDynamic
      | .tuple items => if fitPositions items elements then some tupleToTuple else none
      | .list item => if fitsEach item elements then some listToTuple else none
      | _ => none
    | .object wanted =>
      match source with
      | .dynamic => some fromDynamic
      | .object attributes => if fitAttributes attributes wanted then some objectToObject else none
      | _ => none
termination_by structural target

/-- There are as many types as positions, and each can take its place. -/
def fitPositions : List Ty → List Ty → Bool
  | [], [] => true
  | item :: items, element :: elements =>
    fits item element (find? item element) && fitPositions items elements
  | _, _ => false

/-- One type can take the place of every position. -/
def fitsEach (item : Ty) : List Ty → Bool
  | [] => true
  | element :: elements => fits item element (find? item element) && fitsEach item elements

/-- Every wanted attribute is there, and can take its place. -/
def fitAttributes (attributes : List (String × Ty)) : List (String × Ty) → Bool
  | [] => true
  | (name, ty) :: rest =>
    (match attributes.lookup name with
      | none => false
      | some found => fits found ty (find? found ty))
      && fitAttributes attributes rest

end

@[simp]
theorem find?_self (ty : Ty) : find? ty ty = none := by
  rw [find?.eq_def, if_pos rfl]

theorem find?_dynamic {source : Ty} (hsource : source ≠ .dynamic) :
    find? source .dynamic = some toDynamic := by
  rw [find?.eq_def, if_neg hsource]

end Rule

end LedgerValue

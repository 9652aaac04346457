import LedgerValue.Conversion.Error
import LedgerValue.Conversion.Rule
import LedgerValue.HostNumber.Text
import LedgerValue.Number.Literal

/-!
# Conversion

`convert` brings a value to a type. A value that has the type already is left alone; otherwise a
rule is looked up by the two types and applied. Around every rule null and unknown values just
take the new type, and nothing changes where the target is the dynamic type. The parts of a
collection are converted in the same way, first to last, and the first failure is reported. Main
statements: a value of the wanted type is left alone (`convert_of_ty_eq`), and otherwise the rule
for the two types is applied (`convert_of_find?_eq_some`).
-/

namespace LedgerValue

/-- The outcome of a conversion. -/
abbrev Converted := Except ConversionError

namespace Conversion

/-- The error for two types that no rule joins: the first wanted attribute that an object lacks,
and otherwise the two types. -/
def unconvertible (source target : Ty) : ConversionFault :=
  match source, target with
  | .object attributes, .object wanted =>
    match wanted.find? fun entry => (attributes.lookup entry.1).isNone with
    | some (name, _) => .missingAttribute name
    | none => .mismatch source target
  | _, _ => .mismatch source target

/-- Leaves all to the target when it is dynamic, lets null and unknown values take its type, and
hands a payload on. -/
def guarded (target : Ty) (value : Value) (onPayload : Value → Converted Value) :
    Converted Value :=
  match target with
  | .dynamic => .ok value
  | target =>
    match value with
    | .unknown _ => .ok (.unknown target)
    | .null _ => .ok (.null target)
    | payload => onPayload payload

/-- Converts a value by the rule for its type, given how rules act on payloads. -/
def byRule (target : Ty) (onPayload : Rule → Value → Converted Value) (value : Value) :
    Converted Value :=
  if value.ty = target then .ok value
  else
    match Rule.find? value.ty target with
    | none => .error (.here (unconvertible value.ty target))
    | some rule => guarded target value (onPayload rule)

/-- The one type that some values have, or the declared one where there are none. -/
def commonTy (declared : Ty) : List Ty → Converted Ty
  | [] => .ok declared
  | first :: rest =>
    if rest.all (· = first) then .ok first else .error (.here .inconsistentElements)

/-- The list of converted items. -/
def buildList (declared : Ty) (items : List Value) : Converted Value :=
  (commonTy declared (items.map Value.ty)).bind fun element =>
  (Value.ofItems element items).mapError fun fault => .here (.element fault)

/-- The map of converted entries. -/
def buildMap (declared : Ty) (entries : List (String × Value)) : Converted Value :=
  (commonTy declared (entries.map fun entry => entry.2.ty)).bind fun element =>
  (Value.ofEntries element entries).mapError fun fault => .here (.element fault)

/-- Makes an exact number of a payload. -/
def toNumber (source : NumberSource) (payload : Value) : Converted Number :=
  match source, payload with
  | .hostNumber, .hostNumber x => x.toNumber.mapError fun cause => .here (.number cause)
  | .string, .string text => (Number.parse text).mapError fun _ => .here .numberRequired
  | .assetAmount, .amount amount => .ok amount.toNumber
  | _, payload => .error (.here (.mismatch payload.ty .number))

/-- The finite host number that a text spells. -/
def readHostNumber (text : String) : Converted HostNumber :=
  match HostNumber.read? text.toList with
  | some x => if x.isFinite then .ok x else .error (.here .numberRequired)
  | none => .error (.here .numberRequired)

/-- The truth value that a text spells. -/
def readBool (text : String) : Converted Bool :=
  if text = "true" then .ok true
  else if text = "false" then .ok false
  else .error (.here .boolRequired)

/-- Applies a rule that does not look into the target. -/
def onScalar (target : Ty) (rule : Rule) (payload : Value) : Converted Value :=
  match rule, payload with
  | .toNumber source, payload => (toNumber source payload).map .number
  | .toDynamic, payload => .ok payload
  | .stringToHostNumber, .string text => (readHostNumber text).map .hostNumber
  | .stringToBool, .string text => (readBool text).map .bool
  | .hostNumberToString, .hostNumber x => .ok (.string (String.ofList x.plain))
  | .boolToString, .bool value => .ok (.string (if value then "true" else "false"))
  | _, payload => .error (.here (.mismatch payload.ty target))

/-- Refuses items that are more or fewer than the positions. -/
def checkLength (wanted : Nat) (items : List Value) : Converted (List Value) :=
  if items.length = wanted then .ok items
  else .error (.here (.lengthMismatch wanted items.length))

mutual

/-- Applies a rule to a payload. A rule that does not suit the payload or the target fails. -/
def onPayload (target : Ty) (rule : Rule) (payload : Value) : Converted Value :=
  match target with
  | .list element =>
    match rule, payload with
    | .listToList, .list _ items =>
      (eachItem ConversionError.under (byRule element (onPayload element)) 0 items).bind
        (buildList element)
    | .tupleToList, .tuple items =>
      (eachItem ConversionError.under (byRule element (onPayload element)) 0 items).bind
        (buildList element)
    | rule, payload => onScalar (.list element) rule payload
  | .map element =>
    match rule, payload with
    | .mapToMap, .map _ entries =>
      (eachEntry ConversionError.under (byRule element (onPayload element)) entries).bind
        (buildMap element)
    | .objectToMap, .object attributes =>
      (eachEntry ConversionError.under (byRule element (onPayload element)) attributes).bind
        (buildMap element)
    | rule, payload => onScalar (.map element) rule payload
  | .tuple elements =>
    match rule, payload with
    | .tupleToTuple, .tuple items =>
      (checkLength elements.length items).bind fun items =>
      (onPositions elements 0 items).map .tuple
    | .listToTuple, .list _ items =>
      (checkLength elements.length items).bind fun items =>
      (onPositions elements 0 items).map .tuple
    | rule, payload => onScalar (.tuple elements) rule payload
  | .object wanted =>
    match rule, payload with
    | .objectToObject, .object attributes => (onAttributes wanted attributes).map .object
    | rule, payload => onScalar (.object wanted) rule payload
  | target => onScalar target rule payload
termination_by structural target

/-- Converts items to the types of their positions, the first standing at `position`. -/
def onPositions : List Ty → Nat → List Value → Converted (List Value)
  | element :: elements, position, item :: items =>
    ((byRule element (onPayload element) item).mapError (.under (.position position))).bind
      fun converted => (onPositions elements (position + 1) items).map (converted :: ·)
  | _, _, _ => .ok []

/-- Converts the wanted attributes, each to its type. -/
def onAttributes : List (String × Ty) → List (String × Value) → Converted (List (String × Value))
  | [], _ => .ok []
  | (name, ty) :: wanted, attributes =>
    match attributes.lookup name with
    | none => .error (.here (.missingAttribute name))
    | some value =>
      ((byRule ty (onPayload ty) value).mapError (.under (.member name))).bind
        fun converted => (onAttributes wanted attributes).map ((name, converted) :: ·)

end

end Conversion

/-- Applies a rule to a value, whether or not it is the rule for the types. -/
def Rule.apply (rule : Rule) (value : Value) (target : Ty) : Converted Value :=
  Conversion.guarded target value (Conversion.onPayload target rule)

/-- Converts a value to a type. -/
def convert (value : Value) (target : Ty) : Converted Value :=
  Conversion.byRule target (Conversion.onPayload target) value

theorem convert_of_ty_eq {value : Value} {target : Ty} (hty : value.ty = target) :
    convert value target = .ok value := by
  rw [convert, Conversion.byRule, if_pos hty]

theorem convert_of_find?_eq_some {value : Value} {target : Ty} {rule : Rule}
    (hrule : Rule.find? value.ty target = some rule) :
    convert value target = rule.apply value target := by
  have hne : value.ty ≠ target := by
    rintro heq
    rw [heq, Rule.find?_self] at hrule
    simp at hrule
  rw [convert, Conversion.byRule, if_neg hne, hrule, Rule.apply]

end LedgerValue

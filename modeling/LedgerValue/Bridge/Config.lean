import LedgerValue.Json.Reader

/-!
# Bridge configuration

The limits that hold when values become messages. A configuration is read from a JSON object whose
members are all optional, or from an array of its fields that may end early; the limit on codes
has to lie within what messages can carry.
-/

namespace LedgerValue

/-- The longest asset code that a message can carry. -/
def maxWireCodeLength : Nat := 12

/-- The limits that hold when values become messages. -/
structure BridgeConfig where
  /-- The longest asset code that is accepted. -/
  maxCodeLength : Nat := maxWireCodeLength
  /-- Only positive amounts are paid. -/
  requirePositiveAmounts : Bool := true
deriving DecidableEq, Repr

namespace BridgeConfig

/-- Why a configuration is refused. -/
inductive Fault where
  /-- The text is not the JSON of a configuration. -/
  | malformed
  /-- The limit on codes is not within what messages can carry. -/
  | codeLength (found : Nat)
deriving DecidableEq, Repr

/-- The words for why a configuration is refused. -/
def Fault.message : Fault → String
  | malformed => "malformed configuration"
  | codeLength found =>
    "max_code_len must be between 1 and " ++ toString maxWireCodeLength ++ ", got "
      ++ toString found

/-- A configuration as JSON. -/
def toJson (config : BridgeConfig) : Json :=
  .object [("max_code_len", .integer config.maxCodeLength),
    ("require_positive_amounts", .bool config.requirePositiveAmounts)]

/-- Sets the field with a name. -/
def set? (config : BridgeConfig) (name : String) (value : Json) : Option BridgeConfig :=
  if name = "max_code_len" then
    value.natWord?.map fun maxCodeLength => { config with maxCodeLength }
  else if name = "require_positive_amounts" then
    value.bool?.map fun requirePositiveAmounts => { config with requirePositiveAmounts }
  else none

/-- Sets named fields, each once at most. -/
def setAll? (config : BridgeConfig) : List (String × Json) → Option BridgeConfig
  | [] => some config
  | (name, value) :: rest =>
    if rest.any (·.1 = name) then none
    else (config.set? name value).bind fun config => setAll? config rest

/-- Reads the fields of a configuration. -/
def ofJson? : Json → Option BridgeConfig
  | .object members => setAll? {} members
  | .array [] => some {}
  | .array [length] => setAll? {} [("max_code_len", length)]
  | .array [length, positive] =>
    setAll? {} [("max_code_len", length), ("require_positive_amounts", positive)]
  | _ => none

/-- Reads the text of a configuration. -/
def read (text : String) : Except Fault BridgeConfig :=
  match (Json.read? text.toList).bind ofJson? with
  | none => .error .malformed
  | some config =>
    if 1 ≤ config.maxCodeLength ∧ config.maxCodeLength ≤ maxWireCodeLength then .ok config
    else .error (.codeLength config.maxCodeLength)

end BridgeConfig

end LedgerValue

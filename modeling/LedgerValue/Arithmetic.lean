import LedgerValue.Conversion.Basic

/-!
# Arithmetic on values

The four operations take operands that convert to exact numbers. Null operands are refused, and an
unknown operand makes the result an unknown number; the first operand is examined before the
second.
-/

namespace LedgerValue

/-- Why an operation has no result. -/
inductive OperatorError where
  /-- The operand at a position is null. -/
  | nullArgument (position : Nat)
  /-- The operand at a position does not convert to a number. -/
  | argument (position : Nat) (cause : ConversionError)
  /-- The numbers have no result. -/
  | arithmetic (cause : NumberError)
deriving DecidableEq, Repr

/-- The sentence that reports an error. -/
def OperatorError.message : OperatorError → String
  | nullArgument position =>
    "argument " ++ toString position ++ ": argument must not be null"
  | argument position cause => "argument " ++ toString position ++ ": " ++ cause.message
  | arithmetic cause => cause.message

/-- An arithmetic operation. -/
inductive Operation where
  /-- The sum. -/
  | add
  /-- The difference. -/
  | subtract
  /-- The product. -/
  | multiply
  /-- The quotient. -/
  | divide
deriving DecidableEq, Repr

namespace Operation

/-- The exact result for two numbers. -/
def onNumbers : Operation → Number → Number → Except NumberError Number
  | add, a, b => .ok (a + b)
  | subtract, a, b => .ok (a - b)
  | multiply, a, b => .ok (a * b)
  | divide, a, b => Number.divide a b

/-- The number of an operand, none when it is not known. -/
def operand (position : Nat) (value : Value) : Except OperatorError (Option Number) :=
  if value.isNull then .error (.nullArgument position)
  else if value.ty.isDynamic then .ok none
  else ((convert value .number).mapError (.argument position)).map Value.number?

/-- The result for two values. -/
def onValues (operation : Operation) (a b : Value) : Except OperatorError Value :=
  (operand 0 a).bind fun left =>
  (operand 1 b).bind fun right =>
    match left, right with
    | some x, some y => ((operation.onNumbers x y).mapError .arithmetic).map .number
    | _, _ => .ok (.unknown .number)

end Operation

end LedgerValue

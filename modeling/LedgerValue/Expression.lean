import LedgerValue.Arithmetic
import LedgerValue.Indexing

/-!
# Expressions

The operations on values put together as trees. Operands are evaluated from left to right, each
once, and the first error is the error of the whole. Main statement: a conversion to the type that
the operand has already changes nothing (`evaluate_convert_of_ty`).
-/

namespace LedgerValue

/-- A tree of operations on values. -/
inductive Expression where
  /-- A value that is given. -/
  | leaf (value : Value)
  /-- The element of a collection for a key. -/
  | index (collection key : Expression)
  /-- The result of an arithmetic operation. -/
  | arithmetic (operation : Operation) (left right : Expression)
  /-- The operand brought to a type. -/
  | convert (operand : Expression) (target : Ty)

/-- Why an expression has no value. -/
inductive EvaluationError where
  /-- A collection has no element for a key. -/
  | index (cause : IndexError)
  /-- An arithmetic operation has no result. -/
  | arithmetic (cause : OperatorError)
  /-- A conversion fails. -/
  | conversion (cause : ConversionError)
deriving DecidableEq, Repr

namespace Expression

/-- The value of an expression. -/
def evaluate : Expression → Except EvaluationError Value
  | leaf value => .ok value
  | index collection key =>
    collection.evaluate.bind fun collection =>
    key.evaluate.bind fun key =>
    (LedgerValue.index collection key).mapError .index
  | arithmetic operation left right =>
    left.evaluate.bind fun left =>
    right.evaluate.bind fun right =>
    (operation.onValues left right).mapError .arithmetic
  | convert operand target =>
    operand.evaluate.bind fun operand =>
    (LedgerValue.convert operand target).mapError .conversion

theorem evaluate_convert_of_ty {operand : Expression} {value : Value}
    (hvalue : operand.evaluate = .ok value) :
    (operand.convert value.ty).evaluate = operand.evaluate := by
  rw [evaluate, hvalue]
  change (LedgerValue.convert value value.ty).mapError EvaluationError.conversion = .ok value
  rw [convert_of_ty_eq rfl]
  rfl

end Expression

end LedgerValue

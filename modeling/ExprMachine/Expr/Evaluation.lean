import ExprMachine.Arithmetic
import ExprMachine.Expr.Basic
import ExprMachine.Sink

/-! Evaluation of an expression without compiling it. -/

namespace ExprMachine.Expr

/-- The value of an expression, if it leaves one. The right operand of an
operator is evaluated before the left one. -/
def evaluate : Expr → EStateM Fault Sink (Option (Word 8))
  | .value number => return some number
  | .binary op left right => do
      let right ← right.evaluate
      let left ← left.evaluate
      match left, right with
      | some left, some right =>
          match op.apply left right with
          | .ok result => return some result
          | .error fault => throw fault
      | _, _ => throw (.stuck op)
  | .print operand => do
      match ← operand.evaluate with
      | some number => Sink.writeLine (toString number.toNat)
      | none => Sink.writeLine "none"
      return none

end ExprMachine.Expr

import ExprMachine.BinOp
import ExprMachine.Word

/-! Expressions over numbers of 64 bits. -/

namespace ExprMachine

inductive Expr where
  | value (number : Word 8)
  | binary (op : BinOp) (left right : Expr)
  /-- Prints what the operand leaves, and leaves nothing. -/
  | print (operand : Expr)
deriving DecidableEq

end ExprMachine

import ExprMachine.BinOp
import ExprMachine.Ty

/-! Why an expression is refused before it runs: the operands of an operator have
different types, or the same type but one without values. -/

namespace ExprMachine

inductive TypeError where
  | mismatch (op : BinOp) (left right : Ty)
  | notScalar (op : BinOp) (ty : Ty)
deriving DecidableEq

namespace TypeError

def message : TypeError → String
  | .mismatch op left right =>
      s!"type mismatch in {op.name}: left operand is {left.name}, right operand is {right.name}"
  | .notScalar op ty =>
      s!"cannot apply {op.name} to operands of type {ty.name}"

end TypeError

/-- The scalar on which `op` works when both operands have type `ty`. -/
def Ty.requireScalar (op : BinOp) (ty : Ty) : Except TypeError Scalar :=
  match ty.scalar? with
  | some scalar => .ok scalar
  | .none => .error (.notScalar op ty)

end ExprMachine

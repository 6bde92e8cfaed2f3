import ExprMachine.Expr.Basic
import ExprMachine.TypeError

/-! The type of an expression, and the check that it is well typed. -/

namespace ExprMachine.Expr

/-- The type, without a check: arithmetic takes the type of its left operand. -/
def ty : Expr → Ty
  | .value _ => .u64
  | .binary _ left _ => left.ty
  | .print _ => .none

def commonTy (op : BinOp) (left right : Expr) : Except TypeError Ty :=
  if left.ty = right.ty then
    .ok left.ty
  else
    .error (.mismatch op left.ty right.ty)

/-- The type of a well-typed expression, or the first error. Each operator looks
at the types of its operands, then into the right operand and into the left one,
and last at whether its operands are scalars. -/
def check : Expr → Except TypeError Ty
  | .value _ => return .u64
  | .binary op left right => do
      let ty ← commonTy op left right
      let _ ← right.check
      let _ ← left.check
      let _ ← ty.requireScalar op
      return ty
  | .print operand => do
      let _ ← operand.check
      return .none

end ExprMachine.Expr

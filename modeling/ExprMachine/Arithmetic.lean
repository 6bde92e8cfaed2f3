import ExprMachine.Fault
import ExprMachine.Word

/-! Arithmetic on words. Sums, differences and products wrap around; a quotient
is truncated and has no value when the divisor is zero. -/

namespace ExprMachine

variable {size : Nat}

def BinOp.apply (op : BinOp) (left right : Word size) : Except Fault (Word size) :=
  match op with
  | .add => .ok (left + right)
  | .sub => .ok (left - right)
  | .mul => .ok (left * right)
  | .div => if right = 0 then .error .divisionByZero else .ok (left / right)

end ExprMachine

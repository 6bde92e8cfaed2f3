/-! The arithmetic operators of the expression language. -/

namespace ExprMachine

inductive BinOp where
  | add
  | sub
  | mul
  | div
deriving DecidableEq

def BinOp.name : BinOp → String
  | .add => "Add"
  | .sub => "Sub"
  | .mul => "Mul"
  | .div => "Div"

end ExprMachine

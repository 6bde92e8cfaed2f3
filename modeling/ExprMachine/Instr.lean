import ExprMachine.TypeError

/-! Instructions. Each is fixed to the type of what it works on, so nothing is
left to be decided when it runs. -/

namespace ExprMachine

inductive Instr where
  | readConstant (scalar : Scalar)
  /-- Replace the two topmost values by a result; the topmost is the left operand. -/
  | arith (op : BinOp) (scalar : Scalar)
  /-- Print the topmost value and drop it, or print that there is none. -/
  | print (ty : Ty)
deriving DecidableEq

namespace Instr

def specialize (op : BinOp) (ty : Ty) : Except TypeError Instr := do
  return .arith op (← ty.requireScalar op)

def name : Instr → String
  | .readConstant scalar => s!"ReadConstant<{scalar.name}>"
  | .arith op scalar => s!"{op.name}<{scalar.name}>"
  | .print ty => s!"Print<{ty.name}>"

end Instr

end ExprMachine

import ExprMachine.BinOp

/-! Why a run is cut short. All numbers count bytes; `sp` is the depth of the stack
before the push or the pop that failed. -/

namespace ExprMachine

inductive Fault where
  | stackOverflow (sp size capacity : Nat)
  | stackAllocation (capacity : Nat)
  | stackUnderflow (sp size : Nat)
  | divisionByZero
  | corruptPool (offset size length : Nat)
  | output
  /-- An operand of `op` was evaluated and left no value. -/
  | stuck (op : BinOp)
deriving DecidableEq

def Fault.message : Fault → String
  | .stackOverflow sp size capacity =>
      s!"stack overflow: {size} byte push at offset {sp} exceeds capacity of {capacity} bytes"
  | .stackAllocation capacity =>
      s!"cannot allocate a {capacity} byte operand stack"
  | .stackUnderflow sp size =>
      s!"stack underflow: {size} byte pop with {sp} bytes on the stack"
  | .divisionByZero => "division by zero"
  | .corruptPool offset size length =>
      s!"corrupt constant pool: {size} byte read at offset {offset} overruns {length} byte pool"
  | .output => "failed to write output: failed to write whole buffer"
  | .stuck op => s!"operand of {op.name} has no value"

end ExprMachine

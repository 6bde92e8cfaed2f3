import ExprMachine.Proofs.Code.Counts
import ExprMachine.Proofs.Expr.Emission

/-! # Code and the shape of an expression

The instructions of an expression are those of its nodes in postorder, the right operand
first. How many there are, how many of them read a constant and how many words they leave
on the stack can be told from the expression. -/

namespace ExprMachine

namespace Expr

/-- The nodes of an expression: each comes after its operands, and the right operand before
the left one. -/
def postorder : Expr → List Expr
  | .value number => [.value number]
  | .binary op left right => right.postorder ++ left.postorder ++ [.binary op left right]
  | .print operand => operand.postorder ++ [.print operand]

def instr : Expr → Instr
  | .value _ => .readConstant .u64
  | .binary op _ _ => .arith op .u64
  | .print operand => .print operand.ty

def size : Expr → Nat
  | .value _ => 1
  | .binary _ left right => left.size + right.size + 1
  | .print operand => operand.size + 1

def literals : Expr → Nat
  | .value _ => 1
  | .binary _ left right => left.literals + right.literals
  | .print operand => operand.literals

theorem instrs_eq_map_postorder (expr : Expr) : expr.instrs = expr.postorder.map instr := by
  induction expr with
  | value number => rfl
  | binary op left right leftInstrs rightInstrs =>
      rw [instrs, postorder, List.map_append, List.map_append, leftInstrs, rightInstrs]
      rfl
  | print operand operandInstrs =>
      rw [instrs, postorder, List.map_append, operandInstrs]
      rfl

theorem length_postorder (expr : Expr) : expr.postorder.length = expr.size := by
  induction expr with
  | value number => rfl
  | binary op left right leftLength rightLength =>
      rw [postorder, List.length_append, List.length_append, leftLength, rightLength, size,
        Nat.add_comm right.size, List.length_singleton]
  | print operand operandLength =>
      rw [postorder, List.length_append, operandLength, size, List.length_singleton]

theorem length_instrs (expr : Expr) : expr.instrs.length = expr.size := by
  rw [instrs_eq_map_postorder, List.length_map, length_postorder]

theorem length_constants (expr : Expr) : expr.constants.length = expr.literals := by
  induction expr with
  | value number => rfl
  | binary op left right leftLength rightLength =>
      rw [constants, List.length_append, leftLength, rightLength, literals, Nat.add_comm]
  | print operand operandLength => exact operandLength

theorem reads_instrs (expr : Expr) : Code.reads expr.instrs = expr.literals := by
  induction expr with
  | value number => rfl
  | binary op left right leftReads rightReads =>
      rw [instrs, Code.reads_concat, Code.reads_append, leftReads, rightReads, literals,
        Nat.add_comm right.literals]
      rfl
  | print operand operandReads =>
      rw [instrs, Code.reads_concat, operandReads]
      rfl

theorem HasTy.depth_instrs {expr : Expr} {ty : Ty} (typed : expr.HasTy ty) :
    Code.depth expr.instrs = if ty = .u64 then 1 else 0 := by
  induction typed with
  | value number => rfl
  | binary op leftTyped rightTyped leftDepth rightDepth =>
      rw [instrs, Code.depth_concat, Code.depth_append, leftDepth, rightDepth]
      rfl
  | @print operand ty operandTyped operandDepth =>
      rw [instrs, Code.depth_concat, operandDepth, operandTyped.ty_eq]
      cases ty <;> rfl

end Expr

end ExprMachine

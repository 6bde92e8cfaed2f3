import ExprMachine.Proofs.Expr.Soundness
import Mathlib.Algebra.Group.Nat.Defs

/-! # Values in ordinary arithmetic

What an expression is worth, computed with natural numbers and without words. An
expression that prints nothing evaluates to exactly this value, and it divides by
zero exactly where there is none. -/

namespace ExprMachine

def BinOp.modular (op : BinOp) (left right : Nat) : Option Nat :=
  match op with
  | .add => some ((left + right) % 2 ^ 64)
  | .sub => some ((left + 2 ^ 64 - right) % 2 ^ 64)
  | .mul => some (left * right % 2 ^ 64)
  | .div => if right = 0 then none else some (left / right)

namespace BinOp

variable {op : BinOp} {left right : Word 8} {value : Nat}

theorem apply_of_modular_eq_some
    (defined : op.modular left.toNat right.toNat = some value) :
    ∃ result, op.apply left right = .ok result ∧ result.toNat = value := by
  cases op with
  | add =>
      cases defined
      exact ⟨left + right, rfl, BitVec.toNat_add left right⟩
  | sub =>
      cases defined
      refine ⟨left - right, rfl, ?_⟩
      have bound := right.isLt
      rw [BitVec.toNat_sub]
      congr 1
      omega
  | mul =>
      cases defined
      exact ⟨left * right, rfl, BitVec.toNat_mul left right⟩
  | div =>
      rw [modular] at defined
      split at defined
      · cases defined
      · rename_i nonzero
        cases defined
        have divisor : right ≠ 0 := fun zero => nonzero (congrArg BitVec.toNat zero)
        exact ⟨left / right, if_neg divisor, BitVec.toNat_udiv⟩

theorem apply_of_modular_eq_none (undefined : op.modular left.toNat right.toNat = none) :
    op.apply left right = .error .divisionByZero := by
  cases op with
  | add => cases undefined
  | sub => cases undefined
  | mul => cases undefined
  | div =>
      rw [modular] at undefined
      split at undefined
      · rename_i zero
        exact if_pos (BitVec.eq_of_toNat_eq zero)
      · cases undefined

end BinOp

namespace Expr

/-- The value of the number that the expression computes or prints; none if a divisor
is zero anywhere in it. -/
def reference : Expr → Option Nat
  | .value number => some number.toNat
  | .binary op left right => do
      let left ← left.reference
      let right ← right.reference
      op.modular left right
  | .print operand => operand.reference

variable {expr : Expr} {ty : Ty} {value : Nat}

theorem reference_binary_eq_some_iff {op : BinOp} {left right : Expr} :
    (binary op left right).reference = some value ↔
      ∃ leftValue, left.reference = some leftValue ∧
        ∃ rightValue, right.reference = some rightValue ∧
          op.modular leftValue rightValue = some value := by
  simp [reference, Option.bind_eq_some_iff]

theorem PrintFree.evaluate_of_some (free : expr.PrintFree)
    (defined : expr.reference = some value) (sink : Sink) :
    ∃ number : Word 8, number.toNat = value ∧
      expr.evaluate sink = .ok (some number) sink := by
  induction expr generalizing value with
  | value number =>
      cases defined
      exact ⟨number, rfl, rfl⟩
  | binary op left right leftValue rightValue =>
      rcases reference_binary_eq_some_iff.mp defined with
        ⟨_, leftDefined, _, rightDefined, applied⟩
      rcases rightValue free.2 rightDefined with ⟨rightNumber, rfl, rightEvaluates⟩
      rcases leftValue free.1 leftDefined with ⟨leftNumber, rfl, leftEvaluates⟩
      rcases BinOp.apply_of_modular_eq_some applied with ⟨result, applied, same⟩
      refine ⟨result, same, ?_⟩
      rw [evaluate_binary, EStateM.bind_of_ok rightEvaluates,
        EStateM.bind_of_ok leftEvaluates, BinOp.combine_of_ok applied]
  | print operand _ => exact free.elim

theorem HasTy.evaluate_of_none (typed : expr.HasTy ty) (undefined : expr.reference = none)
    (sink : Sink) : expr.evaluate sink = .error .divisionByZero sink := by
  induction typed with
  | value number => cases undefined
  | @binary op left right leftTyped rightTyped leftFails rightFails =>
      have leftFree := hasTy_u64_iff.mp leftTyped
      have rightFree := hasTy_u64_iff.mp rightTyped
      rw [evaluate_binary]
      cases rightDefined : right.reference with
      | none => rw [EStateM.bind_of_error (rightFails rightDefined)]
      | some rightValue =>
          rcases rightFree.evaluate_of_some rightDefined sink with
            ⟨rightNumber, rfl, rightEvaluates⟩
          rw [EStateM.bind_of_ok rightEvaluates]
          cases leftDefined : left.reference with
          | none => rw [EStateM.bind_of_error (leftFails leftDefined)]
          | some leftValue =>
              rcases leftFree.evaluate_of_some leftDefined sink with
                ⟨leftNumber, rfl, leftEvaluates⟩
              have applied : op.modular leftNumber.toNat rightNumber.toNat = none := by
                simpa [reference, leftDefined, rightDefined] using undefined
              rw [EStateM.bind_of_ok leftEvaluates,
                BinOp.combine_of_error (BinOp.apply_of_modular_eq_none applied)]
  | print operand operandFails =>
      rw [evaluate_print, EStateM.bind_of_error (operandFails undefined)]

theorem HasTy.evaluate_of_some (typed : expr.HasTy ty)
    (defined : expr.reference = some value) :
    ∃ outcome printed, ∀ text : String,
      expr.evaluate { text } = .ok outcome { text := text ++ printed } := by
  induction typed with
  | value number =>
      refine ⟨some number, "", fun text => ?_⟩
      rw [String.append_empty]
      rfl
  | @binary op left right leftTyped rightTyped _ _ =>
      have free := hasTy_u64_iff.mp (.binary op leftTyped rightTyped)
      refine ⟨some (BitVec.ofNat _ value), "", fun text => ?_⟩
      rcases free.evaluate_of_some defined { text } with ⟨number, rfl, evaluates⟩
      rw [evaluates, String.append_empty, BitVec.ofNat_toNat, BitVec.setWidth_eq]
  | print operand operandPrints =>
      rcases operandPrints defined with ⟨outcome, printed, evaluates⟩
      refine ⟨none, printed ++ (line outcome ++ "\n"), fun text => ?_⟩
      have writes : Sink.writeLine (line outcome) { text := text ++ printed } =
          .ok () { text := text ++ printed ++ (line outcome ++ "\n") } := rfl
      rw [evaluate_print, EStateM.bind_of_ok (evaluates text), EStateM.bind_of_ok writes,
        String.append_assoc]
      rfl

end Expr

end ExprMachine

import ExprMachine.Expr.Evaluation
import ExprMachine.Proofs.Sequencing

/-! # The steps of an evaluation

Evaluation combines the outcomes of two operands, or prints the outcome of one. Both
steps stand here under a name of their own, so that other evaluators can share them. -/

namespace ExprMachine

theorem Sink.eq_output_of_writeLine {line : String} {sink after : Sink} {fault : Fault}
    (failed : Sink.writeLine line sink = .error fault after) : fault = .output := by
  rcases sink with ⟨text, _ | room⟩
  · cases failed
  · rw [writeLine, write] at failed
    split at failed
    · cases failed
    · cases failed
      rfl

/-- What an operator makes of the outcomes of its operands. -/
def BinOp.combine (op : BinOp) :
    Option (Word 8) → Option (Word 8) → EStateM Fault Sink (Option (Word 8))
  | some left, some right =>
      match op.apply left right with
      | .ok result => return some result
      | .error fault => throw fault
  | _, _ => throw (.stuck op)

namespace BinOp

variable {op : BinOp} {left right result : Word 8} {sink after : Sink} {fault : Fault}

theorem combine_of_ok (applied : op.apply left right = .ok result) :
    op.combine (some left) (some right) sink = .ok (some result) sink := by
  simp only [combine, applied]
  rfl

theorem combine_of_error (applied : op.apply left right = .error fault) :
    op.combine (some left) (some right) sink = .error fault sink := by
  simp only [combine, applied]
  rfl

theorem eq_div_of_apply_eq_error (failed : op.apply left right = .error fault) :
    op = .div ∧ fault = .divisionByZero := by
  cases op with
  | add => cases failed
  | sub => cases failed
  | mul => cases failed
  | div =>
      rw [apply] at failed
      split at failed
      · cases failed
        exact ⟨rfl, rfl⟩
      · cases failed

theorem exists_of_combine_eq_ok {leftValue rightValue value : Option (Word 8)}
    (combined : op.combine leftValue rightValue sink = .ok value after) :
    ∃ left right result, leftValue = some left ∧ rightValue = some right ∧
      op.apply left right = .ok result ∧ value = some result ∧ after = sink := by
  cases leftValue with
  | none => cases combined
  | some left =>
      cases rightValue with
      | none => cases combined
      | some right =>
          cases applied : op.apply left right with
          | error fault =>
              rw [combine_of_error applied] at combined
              cases combined
          | ok result =>
              rw [combine_of_ok applied] at combined
              cases combined
              exact ⟨left, right, result, rfl, rfl, applied, rfl, rfl⟩

end BinOp

namespace Expr

def line : Option (Word 8) → String
  | some number => toString number.toNat
  | none => "none"

theorem evaluate_binary (op : BinOp) (left right : Expr) :
    (binary op left right).evaluate = (do
      let right ← right.evaluate
      let left ← left.evaluate
      op.combine left right) := rfl

theorem evaluate_print (operand : Expr) :
    (print operand).evaluate = (do
      let outcome ← operand.evaluate
      Sink.writeLine (line outcome)
      return none) := by
  rw [evaluate]
  congr
  funext outcome
  cases outcome <;> rfl

end Expr

end ExprMachine

import ExprMachine.Proofs.Expr.Evaluation
import ExprMachine.Proofs.Expr.Typing

/-! # Well-typed expressions do not get stuck

Evaluation has no check that an operand has left a value; that one has is known from the
types. An expression that is well typed leaves what its type says, or it fails in one of
two ways: it divides by zero, or a line cannot be written. None of this depends on where
the lines go. -/

namespace ExprMachine

inductive Ty.Describes : Ty → Option (Word 8) → Prop where
  | number (number : Word 8) : Describes .u64 (some number)
  | nothing : Describes .none .none

namespace Expr

variable {σ : Type} {writeLine : String → EStateM Fault σ Unit}

/-- Evaluation into anything that takes lines and may refuse them. -/
def evaluateBy (writeLine : String → EStateM Fault σ Unit) :
    Expr → EStateM Fault σ (Option (Word 8))
  | .value number => return some number
  | .binary op left right => do
      let right ← right.evaluateBy writeLine
      let left ← left.evaluateBy writeLine
      match left, right with
      | some left, some right =>
          match op.apply left right with
          | .ok result => return some result
          | .error fault => throw fault
      | _, _ => throw (.stuck op)
  | .print operand => do
      let outcome ← operand.evaluateBy writeLine
      writeLine (line outcome)
      return none

theorem evaluate_eq_evaluateBy (expr : Expr) :
    expr.evaluate = expr.evaluateBy Sink.writeLine := by
  induction expr with
  | value number => rfl
  | binary op left right leftSame rightSame =>
      rw [evaluate, leftSame, rightSame]
      rfl
  | print operand operandSame => rw [evaluate_print, evaluateBy, operandSame]

/-- How the evaluation of an expression of type `ty` may end. There is no case for an
operator that is stuck. -/
inductive Ends (writeLine : String → EStateM Fault σ Unit) (ty : Ty) :
    EStateM.Result Fault σ (Option (Word 8)) → Prop where
  | ok {outcome : Option (Word 8)} {after : σ} :
      ty.Describes outcome → Ends writeLine ty (.ok outcome after)
  | division {after : σ} : Ends writeLine ty (.error .divisionByZero after)
  | writing {line : String} {before after : σ} {fault : Fault} :
      writeLine line before = .error fault after → Ends writeLine ty (.error fault after)

variable {action : EStateM Fault σ (Option (Word 8))}
variable {next : Option (Word 8) → EStateM Fault σ (Option (Word 8))}
variable {expr : Expr} {ty nextTy : Ty} {before : σ}

theorem Ends.bind (ends : Ends writeLine ty (action before))
    (continues : ∀ outcome after, ty.Describes outcome →
      Ends writeLine nextTy (next outcome after)) :
    Ends writeLine nextTy ((action >>= next) before) := by
  generalize reached : action before = result at ends
  cases ends with
  | ok describes =>
      rw [EStateM.bind_of_ok reached]
      exact continues _ _ describes
  | division =>
      rw [EStateM.bind_of_error reached]
      exact .division
  | writing failed =>
      rw [EStateM.bind_of_error reached]
      exact .writing failed

theorem HasTy.ends_evaluateBy (typed : expr.HasTy ty) (before : σ) :
    Ends writeLine ty (expr.evaluateBy writeLine before) := by
  induction typed generalizing before with
  | value number => exact .ok (.number number)
  | binary op leftTyped rightTyped leftEnds rightEnds =>
      rw [evaluateBy]
      apply (rightEnds before).bind
      rintro _ between (right | _)
      apply (leftEnds between).bind
      rintro _ after (left | _)
      cases applied : op.apply left right with
      | ok result =>
          simp only [applied]
          exact .ok (.number result)
      | error fault =>
          rcases BinOp.eq_div_of_apply_eq_error applied with ⟨rfl, rfl⟩
          simp only [applied]
          exact .division
  | print operandTyped operandEnds =>
      rw [evaluateBy]
      apply (operandEnds before).bind
      intro outcome between _
      cases written : writeLine (line outcome) between with
      | ok _ after =>
          rw [EStateM.bind_of_ok written]
          exact .ok .nothing
      | error fault after =>
          rw [EStateM.bind_of_error written]
          exact .writing written

/-! ## Evaluation into a sink -/

variable {sink after : Sink} {fault : Fault}

theorem HasTy.ends_evaluate (typed : expr.HasTy ty) (sink : Sink) :
    Ends Sink.writeLine ty (expr.evaluate sink) := by
  rw [evaluate_eq_evaluateBy]
  exact typed.ends_evaluateBy sink

theorem HasTy.fault_of_evaluate (typed : expr.HasTy ty)
    (failed : expr.evaluate sink = .error fault after) :
    fault = .divisionByZero ∨ fault = .output := by
  have ends := failed ▸ typed.ends_evaluate sink
  cases ends with
  | division => exact .inl rfl
  | writing failed => exact .inr (Sink.eq_output_of_writeLine failed)

end Expr

end ExprMachine

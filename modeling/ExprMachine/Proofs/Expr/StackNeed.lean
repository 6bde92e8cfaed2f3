import ExprMachine.Proofs.Expr.Reference
import ExprMachine.Proofs.WordMachine.Basic

/-! # Evaluation on a bounded stack

The operand stack that an expression needs, and the evaluation of an expression that
is given no more than a certain stack. With as much as it needs it evaluates as it
does without a bound; with less, it overflows unless it divides by zero before. -/

namespace ExprMachine

namespace Expr

/-- How many words lie on the stack at most, the right operand being evaluated first. -/
def need : Expr → Nat
  | .value _ => 1
  | .binary _ left right => max right.need (1 + left.need)
  | .print operand => operand.need

/-- Evaluates an expression above `depth` words on a stack of `capacity` bytes. A
literal is what takes room, and the value of a right operand keeps its room while the
left operand is evaluated. -/
def evaluateWithin (capacity depth : Nat) : Expr → EStateM Fault Sink (Option (Word 8))
  | .value number =>
      if depth < capacity / 8 then return some number else throw (Fault.full capacity)
  | .binary op left right => do
      let right ← right.evaluateWithin capacity depth
      let left ← left.evaluateWithin capacity (depth + 1)
      op.combine left right
  | .print operand => do
      let outcome ← operand.evaluateWithin capacity depth
      Sink.writeLine (line outcome)
      return none

variable {expr : Expr} {ty : Ty} {capacity depth : Nat}

theorem need_pos (expr : Expr) : 0 < expr.need := by
  induction expr with
  | value number => exact Nat.one_pos
  | binary op left right _ rightPos =>
      exact Nat.lt_of_lt_of_le rightPos (Nat.le_max_left _ _)
  | print operand operandPos => exact operandPos

/-! ## Enough room -/

theorem evaluateWithin_of_fits (fits : depth + expr.need ≤ capacity / 8) :
    expr.evaluateWithin capacity depth = expr.evaluate := by
  induction expr generalizing depth with
  | value number => exact if_pos fits
  | binary op left right leftFits rightFits =>
      have rightRoom : depth + right.need ≤ capacity / 8 :=
        Nat.le_trans (Nat.add_le_add_left (Nat.le_max_left _ _) depth) fits
      have leftRoom : depth + 1 + left.need ≤ capacity / 8 := by
        rw [Nat.add_assoc]
        exact Nat.le_trans (Nat.add_le_add_left (Nat.le_max_right _ _) depth) fits
      rw [evaluateWithin, evaluate_binary, leftFits leftRoom, rightFits rightRoom]
  | print operand operandFits =>
      rw [evaluateWithin, evaluate_print, operandFits fits]

/-! ## Too little room -/

theorem HasTy.evaluateWithin_of_not_fits (typed : expr.HasTy ty)
    (inside : depth ≤ capacity / 8) (tight : capacity / 8 < depth + expr.need)
    (sink : Sink) :
    expr.evaluateWithin capacity depth sink = .error (Fault.full capacity) sink ∨
      expr.reference = none ∧
        expr.evaluateWithin capacity depth sink = .error .divisionByZero sink := by
  induction typed generalizing depth with
  | value number =>
      have full : ¬depth < capacity / 8 := Nat.not_lt.mpr (Nat.le_of_lt_succ tight)
      left
      rw [evaluateWithin, if_neg full]
      rfl
  | @binary op left right leftTyped rightTyped leftTight rightTight =>
      have rightFree := hasTy_u64_iff.mp rightTyped
      rw [evaluateWithin]
      by_cases rightFits : depth + right.need ≤ capacity / 8
      · rw [evaluateWithin_of_fits rightFits]
        cases rightDefined : right.reference with
        | none =>
            right
            refine ⟨by simp [reference, rightDefined], ?_⟩
            rw [EStateM.bind_of_error (rightTyped.evaluate_of_none rightDefined sink)]
        | some rightValue =>
            -- Above the value of the right operand there is no room for the left one.
            rcases rightFree.evaluate_of_some rightDefined sink with
              ⟨rightNumber, rfl, rightEvaluates⟩
            have rightPos := right.need_pos
            have leftInside : depth + 1 ≤ capacity / 8 := by omega
            have leftOutside : capacity / 8 < depth + 1 + left.need := by
              rw [need] at tight
              omega
            rw [EStateM.bind_of_ok rightEvaluates]
            rcases leftTight leftInside leftOutside with overflows | ⟨undefined, divides⟩
            · left
              rw [EStateM.bind_of_error overflows]
            · right
              refine ⟨by simp [reference, undefined], ?_⟩
              rw [EStateM.bind_of_error divides]
      · rcases rightTight inside (Nat.not_le.mp rightFits) with
          overflows | ⟨undefined, divides⟩
        · left
          rw [EStateM.bind_of_error overflows]
        · right
          refine ⟨by simp [reference, undefined], ?_⟩
          rw [EStateM.bind_of_error divides]
  | print operand operandTight =>
      rw [evaluateWithin]
      rcases operandTight inside tight with overflows | ⟨undefined, divides⟩
      · left
        rw [EStateM.bind_of_error overflows]
      · right
        refine ⟨undefined, ?_⟩
        rw [EStateM.bind_of_error divides]

theorem HasTy.fits_of_evaluateWithin (typed : expr.HasTy ty)
    (inside : depth ≤ capacity / 8) {value : Option (Word 8)} {sink after : Sink}
    (evaluated : expr.evaluateWithin capacity depth sink = .ok value after) :
    depth + expr.need ≤ capacity / 8 := by
  apply Nat.not_lt.mp
  intro tight
  rcases typed.evaluateWithin_of_not_fits inside tight sink with overflows | ⟨_, divides⟩
  · rw [overflows] at evaluated
    cases evaluated
  · rw [divides] at evaluated
    cases evaluated

theorem HasTy.fault_of_evaluateWithin (typed : expr.HasTy ty)
    (inside : depth ≤ capacity / 8) {fault : Fault} {sink after : Sink}
    (failed : expr.evaluateWithin capacity depth sink = .error fault after) :
    fault = Fault.full capacity ∨ fault = .divisionByZero ∨ fault = .output := by
  by_cases fits : depth + expr.need ≤ capacity / 8
  · rw [evaluateWithin_of_fits fits] at failed
    exact .inr (typed.fault_of_evaluate failed)
  · rcases typed.evaluateWithin_of_not_fits inside (Nat.not_le.mp fits) sink with
      overflows | ⟨_, divides⟩
    · rw [overflows] at failed
      cases failed
      exact .inl rfl
    · rw [divides] at failed
      cases failed
      exact .inr (.inl rfl)

end Expr

end ExprMachine

import ExprMachine.Proofs.Expr.Emission
import ExprMachine.Proofs.Expr.StackNeed

/-! # Compiled code on the word machine

The instructions of a well-typed expression, wherever they stand in a program and
whatever lies on the stack below them, do what evaluation within the room that is
left does. They read the constants of the expression and no others, and touch no
word that was there before. -/

namespace ExprMachine

open WordMachine

namespace Expr

variable {expr : Expr} {ty : Ty} {capacity depth : Nat} {value : Option (Word 8)}
variable {sink after : Sink}

theorem HasTy.isSome_of_evaluateWithin (typed : expr.HasTy ty)
    (evaluated : expr.evaluateWithin capacity depth sink = .ok value after) :
    value.isSome = ty.scalar?.isSome := by
  cases typed with
  | value number =>
      rw [evaluateWithin] at evaluated
      split at evaluated
      · cases evaluated
        rfl
      · cases evaluated
  | binary op left right =>
      simp only [evaluateWithin, EStateM.bind_eq_ok_iff] at evaluated
      rcases evaluated with ⟨_, _, -, _, _, -, combined⟩
      rcases BinOp.exists_of_combine_eq_ok combined with ⟨_, _, result, -, -, -, rfl, -⟩
      rfl
  | print operand =>
      simp only [evaluateWithin, EStateM.bind_eq_ok_iff] at evaluated
      rcases evaluated with ⟨_, _, -, _, _, -, same⟩
      cases same
      rfl

end Expr

namespace WordMachine

/-! ## One instruction and the run after it -/

variable {bounds : Bounds} {words constants : List (Word 8)} {sink after : Sink}
variable {op : BinOp} {left right result : Word 8} {fault : Fault}
variable {ty : Ty} {value : Option (Word 8)}
variable (pc : Nat) (rest : List Instr) (events : Array Event)

theorem runFrom_readConstant_of_room (constant : Word 8)
    (room : words.length < bounds.capacity / 8) :
    runFrom bounds pc (.readConstant .u64 :: rest)
        ⟨words, constant :: constants, ⟨sink, events⟩⟩ =
      runFrom bounds (pc + 1) rest
        ⟨constant :: words, constants,
          ⟨sink, events.push (.exec pc (.readConstant .u64) (8 * words.length))⟩⟩ :=
  runFrom_cons_of_ok pc (if_pos room)

theorem runFrom_readConstant_of_full (constant : Word 8)
    (full : ¬words.length < bounds.capacity / 8) :
    runFrom bounds pc (.readConstant .u64 :: rest)
        ⟨words, constant :: constants, ⟨sink, events⟩⟩ =
      .error (Fault.full bounds.capacity) ⟨words, constants,
        ⟨sink, events.push (.exec pc (.readConstant .u64) (8 * words.length))⟩⟩ :=
  runFrom_cons_of_error pc (if_neg full)

theorem runFrom_arith_of_ok (applied : op.apply left right = .ok result) :
    runFrom bounds pc (.arith op .u64 :: rest)
        ⟨left :: right :: words, constants, ⟨sink, events⟩⟩ =
      runFrom bounds (pc + 1) rest
        ⟨result :: words, constants,
          ⟨sink, events.push (.exec pc (.arith op .u64) (8 * (words.length + 2)))⟩⟩ := by
  apply runFrom_cons_of_ok
  simp only [step, State.record, applied]
  rfl

theorem runFrom_arith_of_error (applied : op.apply left right = .error fault) :
    runFrom bounds pc (.arith op .u64 :: rest)
        ⟨left :: right :: words, constants, ⟨sink, events⟩⟩ =
      .error fault ⟨words, constants,
        ⟨sink, events.push (.exec pc (.arith op .u64) (8 * (words.length + 2)))⟩⟩ := by
  apply runFrom_cons_of_error
  simp only [step, State.record, applied]
  rfl

theorem step_print (shape : value.isSome = ty.scalar?.isSome) (effects : Effects) :
    step bounds (.print ty) ⟨value.toList ++ words, constants, effects⟩ =
      writeLine (Expr.line value) ⟨words, constants, effects⟩ := by
  cases ty with
  | none =>
      cases value with
      | none => rfl
      | some number => cases shape
  | u64 =>
      cases value with
      | none => cases shape
      | some number => rfl

theorem runFrom_print_of_ok (shape : value.isSome = ty.scalar?.isSome)
    (written : Sink.writeLine (Expr.line value) sink = .ok () after) :
    runFrom bounds pc (.print ty :: rest)
        ⟨value.toList ++ words, constants, ⟨sink, events⟩⟩ =
      runFrom bounds (pc + 1) rest
        ⟨words, constants, ⟨after,
          events.push (.exec pc (.print ty) (8 * (value.toList ++ words).length))⟩⟩ := by
  apply runFrom_cons_of_ok
  refine (step_print shape _).trans ?_
  simp only [writeLine, Effects.onSink, Effects.record, written]

theorem runFrom_print_of_error (shape : value.isSome = ty.scalar?.isSome)
    (failed : Sink.writeLine (Expr.line value) sink = .error fault after) :
    runFrom bounds pc (.print ty :: rest)
        ⟨value.toList ++ words, constants, ⟨sink, events⟩⟩ =
      .error fault ⟨words, constants, ⟨after,
        events.push (.exec pc (.print ty) (8 * (value.toList ++ words).length))⟩⟩ := by
  apply runFrom_cons_of_error
  refine (step_print shape _).trans ?_
  simp only [writeLine, Effects.onSink, Effects.record, failed]

end WordMachine

namespace Expr

variable {expr : Expr} {ty : Ty} {bounds : Bounds} {value : Option (Word 8)}
variable {sink after : Sink} {fault : Fault} {words : List (Word 8)}

theorem HasTy.runFrom_of_ok (typed : expr.HasTy ty)
    (evaluated : expr.evaluateWithin bounds.capacity words.length sink = .ok value after)
    (pc : Nat) (rest : List Instr) (constants : List (Word 8)) (events : Array Event) :
    ∃ moreEvents,
      runFrom bounds pc (expr.instrs ++ rest)
          ⟨words, expr.constants ++ constants, ⟨sink, events⟩⟩ =
        runFrom bounds (pc + expr.instrs.length) rest
          ⟨value.toList ++ words, constants, ⟨after, moreEvents⟩⟩ := by
  induction typed generalizing value sink after words pc rest constants events with
  | value number =>
      rw [evaluateWithin] at evaluated
      split at evaluated
      · rename_i room
        cases evaluated
        exact ⟨_, runFrom_readConstant_of_room pc rest events number room⟩
      · cases evaluated
  | @binary op left right leftTyped rightTyped leftRuns rightRuns =>
      simp only [evaluateWithin, EStateM.bind_eq_ok_iff] at evaluated
      rcases evaluated with ⟨_, middle, rightEvaluated, _, last, leftEvaluated, combined⟩
      rcases BinOp.exists_of_combine_eq_ok combined with
        ⟨leftNumber, rightNumber, result, rfl, rfl, applied, rfl, rfl⟩
      -- The number of the right operand lies below while the left one runs.
      rcases rightRuns rightEvaluated pc (left.instrs ++ .arith op .u64 :: rest)
        (left.constants ++ constants) events with ⟨rightEvents, rightRun⟩
      have aboveRight : left.evaluateWithin bounds.capacity (rightNumber :: words).length
        middle = .ok (some leftNumber) after := leftEvaluated
      rcases leftRuns aboveRight (pc + right.instrs.length) (.arith op .u64 :: rest)
        constants rightEvents with ⟨leftEvents, leftRun⟩
      have count : pc + (Expr.binary op left right).instrs.length =
          pc + right.instrs.length + left.instrs.length + 1 := by
        simp only [instrs, List.length_append, List.length_singleton]
        omega
      rw [instrs_binary_append, constants_binary_append, count]
      exact ⟨_, (rightRun.trans leftRun).trans
        (runFrom_arith_of_ok _ rest leftEvents applied)⟩
  | @print operand ty operandTyped operandRuns =>
      simp only [evaluateWithin, EStateM.bind_eq_ok_iff] at evaluated
      rcases evaluated with ⟨printed, middle, operandEvaluated, _, last, written, same⟩
      cases same
      rcases operandRuns operandEvaluated pc (.print operand.ty :: rest) constants
        events with ⟨operandEvents, operandRun⟩
      have count :
          pc + (Expr.print operand).instrs.length = pc + operand.instrs.length + 1 := by
        simp only [instrs, List.length_append, List.length_singleton]
        omega
      have shape := operandTyped.isSome_of_evaluateWithin operandEvaluated
      rw [← operandTyped.ty_eq] at shape
      rw [instrs_print_append, Expr.constants, count]
      exact ⟨_, operandRun.trans (runFrom_print_of_ok _ rest operandEvents shape written)⟩

theorem HasTy.runFrom_of_error (typed : expr.HasTy ty)
    (evaluated : expr.evaluateWithin bounds.capacity words.length sink =
      .error fault after)
    (pc : Nat) (rest : List Instr) (constants : List (Word 8)) (events : Array Event) :
    ∃ last, last.effects.sink = after ∧
      runFrom bounds pc (expr.instrs ++ rest)
          ⟨words, expr.constants ++ constants, ⟨sink, events⟩⟩ = .error fault last := by
  induction typed generalizing sink after words pc rest constants events with
  | value number =>
      rw [evaluateWithin] at evaluated
      split at evaluated
      · cases evaluated
      · rename_i full
        cases evaluated
        exact ⟨_, rfl, runFrom_readConstant_of_full pc rest events number full⟩
  | @binary op left right leftTyped rightTyped leftFails rightFails =>
      rw [instrs_binary_append, constants_binary_append]
      simp only [evaluateWithin, EStateM.bind_eq_error_iff] at evaluated
      rcases evaluated with rightFailed | ⟨rightValue, middle, rightEvaluated, evaluated⟩
      · exact rightFails rightFailed pc _ _ events
      · have rightNumeric := rightTyped.isSome_of_evaluateWithin rightEvaluated
        rcases Option.isSome_iff_exists.mp rightNumeric with ⟨rightNumber, rfl⟩
        rcases rightTyped.runFrom_of_ok rightEvaluated pc
          (left.instrs ++ .arith op .u64 :: rest) (left.constants ++ constants)
          events with ⟨rightEvents, rightRun⟩
        rw [rightRun]
        rcases evaluated with leftFailed | ⟨leftValue, last, leftEvaluated, combined⟩
        · have aboveRight : left.evaluateWithin bounds.capacity
            (rightNumber :: words).length middle = .error fault after := leftFailed
          exact leftFails aboveRight _ _ constants rightEvents
        · have leftNumeric := leftTyped.isSome_of_evaluateWithin leftEvaluated
          rcases Option.isSome_iff_exists.mp leftNumeric with ⟨leftNumber, rfl⟩
          have aboveRight : left.evaluateWithin bounds.capacity
            (rightNumber :: words).length middle = .ok (some leftNumber) last :=
              leftEvaluated
          rcases leftTyped.runFrom_of_ok aboveRight (pc + right.instrs.length)
            (.arith op .u64 :: rest) constants rightEvents with ⟨leftEvents, leftRun⟩
          cases applied : op.apply leftNumber rightNumber with
          | ok result =>
              rw [BinOp.combine_of_ok applied] at combined
              cases combined
          | error fault =>
              rw [BinOp.combine_of_error applied] at combined
              cases combined
              exact ⟨_, rfl,
                leftRun.trans (runFrom_arith_of_error _ rest leftEvents applied)⟩
  | @print operand ty operandTyped operandFails =>
      rw [instrs_print_append, Expr.constants]
      simp only [evaluateWithin, EStateM.bind_eq_error_iff] at evaluated
      rcases evaluated with operandFailed | ⟨printed, middle, operandEvaluated, evaluated⟩
      · exact operandFails operandFailed pc _ constants events
      · rcases operandTyped.runFrom_of_ok operandEvaluated pc
          (.print operand.ty :: rest) constants events with ⟨operandEvents, operandRun⟩
        have shape := operandTyped.isSome_of_evaluateWithin operandEvaluated
        rw [← operandTyped.ty_eq] at shape
        rcases evaluated with failed | ⟨_, _, _, impossible⟩
        · exact ⟨_, rfl, operandRun.trans
            (runFrom_print_of_error _ rest operandEvents shape failed)⟩
        · cases impossible

end Expr

end ExprMachine

import ExprMachine.Proofs.WordMachine.Compiled
import ExprMachine.Proofs.WordMachine.Refinement

/-! # Programs of several expressions

The code of several expressions does what their evaluation one after another does,
each of them above the values that those before it have left. -/

namespace ExprMachine

open WordMachine

/-- Evaluates the expressions in turn. The answer is how many words lie on the stack in
the end. -/
def Expr.evaluateAllWithin (capacity depth : Nat) : List Expr → EStateM Fault Sink Nat
  | [] => return depth
  | expr :: exprs => do
      let value ← expr.evaluateWithin capacity depth
      evaluateAllWithin capacity (depth + value.toList.length) exprs

namespace WordMachine

variable {exprs : List Expr} {bounds : Bounds} {words : List (Word 8)} {sink after : Sink}
variable {fault : Fault} {depth : Nat}

theorem runFrom_flatMap_of_ok (typed : ∀ expr ∈ exprs, expr.HasTy expr.ty)
    (evaluated : Expr.evaluateAllWithin bounds.capacity words.length exprs sink =
      .ok depth after) (pc : Nat) (events : Array Event) :
    ∃ left moreEvents, left.length = depth ∧
      runFrom bounds pc (exprs.flatMap Expr.instrs)
          ⟨words, exprs.flatMap Expr.constants, ⟨sink, events⟩⟩ =
        .ok () ⟨left, [], ⟨after, moreEvents⟩⟩ := by
  induction exprs generalizing words sink pc events with
  | nil =>
      cases evaluated
      exact ⟨words, events, rfl, rfl⟩
  | cons expr exprs induction =>
      simp only [Expr.evaluateAllWithin, EStateM.bind_eq_ok_iff] at evaluated
      rcases evaluated with ⟨value, middle, first, others⟩
      rcases List.forall_mem_cons.mp typed with ⟨exprTyped, othersTyped⟩
      rcases exprTyped.runFrom_of_ok first pc (exprs.flatMap Expr.instrs)
        (exprs.flatMap Expr.constants) events with ⟨firstEvents, firstRun⟩
      rw [Nat.add_comm, ← List.length_append] at others
      rcases induction othersTyped others (pc + expr.instrs.length) firstEvents with
        ⟨left, moreEvents, length, run⟩
      exact ⟨left, moreEvents, length, firstRun.trans run⟩

theorem runFrom_flatMap_of_error (typed : ∀ expr ∈ exprs, expr.HasTy expr.ty)
    (evaluated : Expr.evaluateAllWithin bounds.capacity words.length exprs sink =
      .error fault after) (pc : Nat) (events : Array Event) :
    ∃ last, last.effects.sink = after ∧
      runFrom bounds pc (exprs.flatMap Expr.instrs)
          ⟨words, exprs.flatMap Expr.constants, ⟨sink, events⟩⟩ = .error fault last := by
  induction exprs generalizing words sink pc events with
  | nil => cases evaluated
  | cons expr exprs induction =>
      rcases List.forall_mem_cons.mp typed with ⟨exprTyped, othersTyped⟩
      simp only [Expr.evaluateAllWithin, EStateM.bind_eq_error_iff] at evaluated
      rcases evaluated with failed | ⟨value, middle, first, others⟩
      · exact exprTyped.runFrom_of_error failed pc _ _ events
      · rcases exprTyped.runFrom_of_ok first pc (exprs.flatMap Expr.instrs)
          (exprs.flatMap Expr.constants) events with ⟨firstEvents, firstRun⟩
        rw [Nat.add_comm, ← List.length_append] at others
        rcases induction othersTyped others (pc + expr.instrs.length) firstEvents with
          ⟨last, same, run⟩
        exact ⟨last, same, firstRun.trans run⟩

end WordMachine

namespace Program

variable {exprs : List Expr} {resources : Resources} {sink after : Sink} {fault : Fault}
variable {depth : Nat}

theorem toList_pool_append_empty (constants : List (Word 8)) (instrs : List Instr) :
    (({} : Program).append constants instrs).pool.bytes.toList =
      constants.flatMap Word.bytes := by
  simp [append]

theorem length_pool_append_empty (constants : List (Word 8)) (instrs : List Instr) :
    (({} : Program).append constants instrs).pool.length = 8 * constants.length := by
  rw [ConstantPool.length, ← Array.length_toList, toList_pool_append_empty,
    Word.length_flatMap_bytes]

theorem toList_code_append_empty (constants : List (Word 8)) (instrs : List Instr) :
    (({} : Program).append constants instrs).code.toList = instrs := by
  simp [append]

theorem run_append_empty_eq (allocatable : resources.stackSize ≤ resources.memory)
    (constants : List (Word 8)) (instrs : List Instr) :
    (({} : Program).append constants instrs).run resources =
      WordMachine.run ⟨resources.stackSize, 8 * constants.length⟩ constants instrs := by
  rw [run_eq _ allocatable, toList_pool_append_empty, length_pool_append_empty,
    toList_code_append_empty, Word.split_flatMap_bytes (by decide)]

theorem run_flatMap_of_ok (allocatable : resources.stackSize ≤ resources.memory)
    (typed : ∀ expr ∈ exprs, expr.HasTy expr.ty)
    (evaluated : Expr.evaluateAllWithin resources.stackSize 0 exprs sink =
      .ok depth after) (events : Array Event) :
    let program :=
      ({} : Program).append (exprs.flatMap Expr.constants) (exprs.flatMap Expr.instrs)
    ∃ moreEvents : Array Event, program.run resources ⟨sink, events⟩ =
      .ok () ⟨after, moreEvents.push
        (.finished program.code.size (8 * depth) program.pool.length)⟩ := by
  intro program
  let bounds : Bounds := ⟨resources.stackSize, 8 * (exprs.flatMap Expr.constants).length⟩
  have start : Expr.evaluateAllWithin bounds.capacity ([] : List (Word 8)).length exprs
    sink = .ok depth after := evaluated
  rcases runFrom_flatMap_of_ok typed start 0 events with ⟨left, moreEvents, rfl, run⟩
  refine ⟨moreEvents, ?_⟩
  have size : program.code.size = (exprs.flatMap Expr.instrs).length := by
    rw [← Array.length_toList, toList_code_append_empty]
  rw [run_append_empty_eq allocatable, length_pool_append_empty, size]
  simp only [WordMachine.run, bounds] at run ⊢
  rw [run]
  rfl

theorem run_flatMap_of_error (allocatable : resources.stackSize ≤ resources.memory)
    (typed : ∀ expr ∈ exprs, expr.HasTy expr.ty)
    (evaluated : Expr.evaluateAllWithin resources.stackSize 0 exprs sink =
      .error fault after) (events : Array Event) :
    let program :=
      ({} : Program).append (exprs.flatMap Expr.constants) (exprs.flatMap Expr.instrs)
    ∃ moreEvents : Array Event,
      program.run resources ⟨sink, events⟩ = .error fault ⟨after, moreEvents⟩ := by
  intro program
  let bounds : Bounds := ⟨resources.stackSize, 8 * (exprs.flatMap Expr.constants).length⟩
  have start : Expr.evaluateAllWithin bounds.capacity ([] : List (Word 8)).length exprs
    sink = .error fault after := evaluated
  rcases runFrom_flatMap_of_error typed start 0 events with ⟨last, rfl, run⟩
  refine ⟨last.effects.events, ?_⟩
  rw [run_append_empty_eq allocatable]
  simp only [WordMachine.run, bounds] at run ⊢
  rw [run]

end Program

end ExprMachine

import ExprMachine.Proofs.Program.Refinement

/-! # More stack

The capacity of the stack decides about overflows and about nothing else. On a larger
stack a program runs as it does on a smaller one, up to the point where the smaller one
is full; it can only go on from there. -/

namespace ExprMachine

namespace WordMachine

variable {small large : Bounds}

/-- The larger machine goes the same step, or the smaller one is full. -/
theorem step_of_larger (samePool : small.poolLength = large.poolLength)
    (larger : small.capacity ≤ large.capacity) (instr : Instr) (state : State) :
    step large instr state = step small instr state ∨
      ∃ after, step small instr state = .error (Fault.full small.capacity) after ∧
        after.effects.GrowsTo (outcome (step large instr state)).2.effects := by
  rcases state with ⟨words, constants, effects⟩
  cases instr with
  | readConstant scalar =>
      cases constants with
      | nil =>
          left
          rw [step, step, samePool]
      | cons constant constants =>
          by_cases room : words.length < small.capacity / 8
          · have largerRoom : words.length < large.capacity / 8 := by omega
            left
            rw [step, step, if_pos room, if_pos largerRoom]
          · right
            exact ⟨⟨words, constants, effects⟩, if_neg room,
              growsTo_step large (.readConstant scalar)
                ⟨words, constant :: constants, effects⟩⟩
  | arith op scalar =>
      left
      rcases words with _ | ⟨_, _ | ⟨_, _⟩⟩ <;> rfl
  | print ty =>
      left
      cases ty with
      | none => rfl
      | u64 => cases words <;> rfl

theorem runFrom_of_larger (samePool : small.poolLength = large.poolLength)
    (larger : small.capacity ≤ large.capacity) (pc : Nat) (code : List Instr)
    (state : State) :
    runFrom large pc code state = runFrom small pc code state ∨
      ∃ after, runFrom small pc code state = .error (Fault.full small.capacity) after ∧
        after.effects.GrowsTo (outcome (runFrom large pc code state)).2.effects := by
  induction code generalizing pc state with
  | nil => exact .inl rfl
  | cons instr rest induction =>
      let announced := state.record (.exec pc instr (8 * state.words.length))
      rw [runFrom_cons, runFrom_cons]
      -- Until the smaller machine is full both are in one and the same state, so there are
      -- no two states to relate.
      rcases step_of_larger samePool larger instr announced with
        same | ⟨after, overflows, grows⟩
      · have executed : execute large pc instr state = execute small pc instr state := same
        cases result : execute small pc instr state with
        | error fault after =>
            left
            rw [EStateM.bind_of_error (executed.trans result), EStateM.bind_of_error result]
        | ok _ after =>
            rw [EStateM.bind_of_ok (executed.trans result), EStateM.bind_of_ok result]
            exact induction (pc + 1) after
      · right
        have executed : execute small pc instr state =
          .error (Fault.full small.capacity) after := overflows
        have later := growsTo_bind state (execute large pc instr) fun _ =>
          growsTo_runFrom large (pc + 1) rest
        exact ⟨after, EStateM.bind_of_error executed, grows.trans later⟩

end WordMachine

namespace Program

variable {small large : Resources}

theorem run_of_larger_cases (program : Program)
    (smallAllocatable : small.stackSize ≤ small.memory)
    (largeAllocatable : large.stackSize ≤ large.memory)
    (larger : small.stackSize ≤ large.stackSize) (effects : Effects) :
    program.run large effects = program.run small effects ∨
      ∃ after, program.run small effects = .error (Fault.full small.stackSize) after ∧
        after.GrowsTo (outcome (program.run large effects)).2 := by
  have samePool : (program.bounds small).poolLength = (program.bounds large).poolLength := rfl
  rcases WordMachine.runFrom_of_larger samePool larger 0 program.code.toList
    (program.start effects) with same | ⟨after, overflows, grows⟩
  · left
    cases run : WordMachine.runFrom (program.bounds small) 0 program.code.toList
        (program.start effects) with
    | ok _ state =>
        rw [run_of_runFrom_ok smallAllocatable run,
          run_of_runFrom_ok largeAllocatable (same.trans run)]
    | error fault state =>
        rw [run_of_runFrom_error smallAllocatable run,
          run_of_runFrom_error largeAllocatable (same.trans run)]
  · right
    exact ⟨after.effects, run_of_runFrom_error smallAllocatable overflows,
      grows.trans (program.growsTo_run largeAllocatable effects)⟩

/-- Unless it overflows, a run on a larger stack is the same in all that it shows. One that
overflows has shown the beginning of what is shown on the larger stack. -/
theorem run_of_larger_stack (program : Program)
    (smallAllocatable : small.stackSize ≤ small.memory)
    (largeAllocatable : large.stackSize ≤ large.memory)
    (larger : small.stackSize ≤ large.stackSize) (effects : Effects) :
    match program.run small effects with
    | .error (.stackOverflow _ _ _) after =>
        after.GrowsTo (outcome (program.run large effects)).2
    | result => program.run large effects = result := by
  rcases run_of_larger_cases program smallAllocatable largeAllocatable larger effects with
    same | ⟨after, overflows, grows⟩
  · rw [same]
    split
    · rename_i overflows
      rw [overflows]
      exact .refl _
    · rfl
  · rw [overflows]
    exact grows

def printThenReads : Program where
  pool := { bytes := ([7, 1, 2].flatMap fun word : Word 8 => Word.bytes word).toArray }
  code := #[.readConstant .u64, .print .u64, .readConstant .u64, .readConstant .u64,
    .print .none]

/-- On the smallest of the three stacks the last read overflows; between the other two there
is no difference. -/
theorem run_of_larger_stack_printThenReads :
    let full : Effects := {
      sink := { text := "7\n" }
      events := #[.exec 0 (.readConstant .u64) 0, .exec 1 (.print .u64) 8,
        .exec 2 (.readConstant .u64) 0, .exec 3 (.readConstant .u64) 8] }
    printThenReads.run { stackSize := 9 } {} = .error (.stackOverflow 8 8 9) full ∧
      full.GrowsTo (outcome (printThenReads.run { stackSize := 16 } {})).2 ∧
      printThenReads.run { stackSize := 24 } {} =
        printThenReads.run { stackSize := 16 } {} := by
  intro full
  refine ⟨rfl, ?_, ?_⟩
  · exact @run_of_larger_stack { stackSize := 9 } { stackSize := 16 } printThenReads
      (by decide) (by decide) (by decide) {}
  · exact @run_of_larger_stack { stackSize := 16 } { stackSize := 24 } printThenReads
      (by decide) (by decide) (by decide) {}

end Program

end ExprMachine

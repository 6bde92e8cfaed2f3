import ExprMachine.Proofs.WordMachine.Growth

/-! # Programs over words

Any program at all, however malformed its pool and its code, does on its bytes what the
word machine does on the whole words of the pool. Its faults are those of the word
machine, with fields that the sizes of the stack and of the pool determine. -/

namespace ExprMachine.Program

open WordMachine (Bounds Reached State)

variable {program : Program} {resources : Resources} {effects after : Effects}
variable {code : List Instr} {state : State} {fault : Fault}

def bounds (program : Program) (resources : Resources) : Bounds :=
  ⟨resources.stackSize, program.pool.length⟩

/-- Too few bytes for a word at the end of the pool are never read. -/
def words (program : Program) : List (Word 8) :=
  Word.split 8 program.pool.bytes.toList

def start (program : Program) (effects : Effects) : State :=
  ⟨[], program.words, effects⟩

theorem length_words (program : Program) :
    program.words.length = program.pool.length / 8 := by
  rw [words, Word.length_split, Array.length_toList, ConstantPool.length]

theorem reached_of_runFrom
    (run : WordMachine.runFrom (program.bounds resources) 0 code (program.start effects) =
      .ok () state) :
    Reached (program.bounds resources) effects code state :=
  (Reached.initial program.length_words effects).of_runFrom run

theorem exists_of_runFrom_eq_error
    (run : WordMachine.runFrom (program.bounds resources) 0 code (program.start effects) =
      .error fault state) :
    ∃ ran instr unrun reached, code = ran ++ instr :: unrun ∧
      WordMachine.runFrom (program.bounds resources) 0 ran (program.start effects) =
        .ok () reached ∧
      WordMachine.execute (program.bounds resources) ran.length instr reached =
        .error fault state := by
  rcases WordMachine.exists_of_runFrom_eq_error run with
    ⟨ran, instr, unrun, reached, split, before, failed⟩
  rw [Nat.zero_add] at failed
  exact ⟨ran, instr, unrun, reached, split, before, failed⟩

section

variable (allocatable : resources.stackSize ≤ resources.memory)
include allocatable

theorem run_of_runFrom_ok
    (run : WordMachine.runFrom (program.bounds resources) 0 program.code.toList
      (program.start effects) = .ok () state) :
    program.run resources effects =
      .ok () (state.effects.record (.finished program.code.size
        (8 * state.words.length) (8 * Code.reads program.code.toList))) := by
  have constants := (reached_of_runFrom run).constants
  have whole : program.words.length = (program.bounds resources).poolLength / 8 :=
    program.length_words
  have read : program.words.length - state.constants.length =
      Code.reads program.code.toList := by omega
  simp only [bounds, start, words] at run read
  simp only [run_eq program allocatable, WordMachine.run, run, read, Array.length_toList]

theorem run_of_runFrom_error
    (run : WordMachine.runFrom (program.bounds resources) 0 program.code.toList
      (program.start effects) = .error fault state) :
    program.run resources effects = .error fault state.effects := by
  simp only [bounds, start, words] at run
  simp only [run_eq program allocatable, WordMachine.run, run]

end

theorem growsTo_run (program : Program)
    (allocatable : resources.stackSize ≤ resources.memory) (effects : Effects) :
    (outcome (WordMachine.runFrom (program.bounds resources) 0 program.code.toList
        (program.start effects))).2.effects.GrowsTo
      (outcome (program.run resources effects)).2 := by
  cases run : WordMachine.runFrom (program.bounds resources) 0 program.code.toList
      (program.start effects) with
  | ok _ state =>
      rw [run_of_runFrom_ok allocatable run]
      exact .record state.effects _
  | error fault state =>
      rw [run_of_runFrom_error allocatable run]
      exact .refl state.effects

/-- However far the code has run, there are never more words on the stack than its capacity
holds whole. -/
theorem run_refines_wordMachine (program : Program)
    (allocatable : resources.stackSize ≤ resources.memory) (effects : Effects) :
    program.run resources effects =
        WordMachine.run (program.bounds resources) program.words program.code.toList
          effects ∧
      program.words.length = program.pool.length / 8 ∧
      (∀ ran reached,
        WordMachine.runFrom (program.bounds resources) 0 ran (program.start effects) =
            .ok () reached →
          reached.words.length ≤ resources.stackSize / 8) ∧
      ∀ fault after, program.run resources effects = .error fault after →
        fault ∈ [
          .stackOverflow (8 * (resources.stackSize / 8)) 8 resources.stackSize,
          .stackUnderflow 0 8,
          .corruptPool (8 * (program.pool.length / 8)) 8 program.pool.length,
          .divisionByZero, .output] := by
  refine ⟨congrFun (run_eq program allocatable) effects, program.length_words, ?_, ?_⟩
  · intro ran reached run
    exact (reached_of_runFrom run).length_words_le
  · intro fault after failed
    cases run : WordMachine.runFrom (program.bounds resources) 0 program.code.toList
        (program.start effects) with
    | ok _ state =>
        rw [run_of_runFrom_ok allocatable run] at failed
        cases failed
    | error reason last =>
        rw [run_of_runFrom_error allocatable run] at failed
        cases failed
        rcases exists_of_runFrom_eq_error run with
          ⟨ran, instr, unrun, reached, -, before, failed⟩
        exact (reached_of_runFrom before).fault_mem failed

def shortPool : Program where
  pool := { bytes := #[7, 0, 0, 0, 0, 0, 0, 0, 1, 2, 3, 4] }
  code := #[.readConstant .u64, .print .u64, .print .none, .readConstant .u64]

/-- The stack has room for one word and is empty again by the time of the second read. -/
theorem run_refines_wordMachine_shortPool :
    shortPool.run { stackSize := 12 } {} =
        .error (.corruptPool 8 8 12) {
          sink := { text := "7\nnone\n" }
          events := #[.exec 0 (.readConstant .u64) 0, .exec 1 (.print .u64) 8,
            .exec 2 (.print .none) 0, .exec 3 (.readConstant .u64) 0] } ∧
      Fault.corruptPool 8 8 12 ∈ [.stackOverflow 8 8 12, .stackUnderflow 0 8,
        .corruptPool 8 8 12, .divisionByZero, .output] := by
  have general := run_refines_wordMachine shortPool
    (show ({ stackSize := 12 } : Resources).stackSize ≤ 2 ^ 28 by decide) {}
  refine ⟨?run, general.2.2.2 _ _ ?run⟩
  rw [general.1]
  rfl

end ExprMachine.Program

import ExprMachine.Proofs.Backend.Agreement
import ExprMachine.Proofs.Expr.Postorder
import ExprMachine.Proofs.Program.Events

/-! # What the backends record

The walker records nothing. The threaded backend records the program, and then one event
for each node of the expression, up to the one that fails if any of them does. -/

namespace ExprMachine

open WordMachine (announcements)

namespace WordMachine.StepResult

variable {bounds : Bounds} {ran : List Instr} {instr : Instr} {sink : Sink} {last : State}

theorem of_overflow {sp size capacity : Nat}
    (result : StepResult bounds ran instr sink (.error (.stackOverflow sp size capacity) last)) :
    instr = .readConstant .u64 ∧ sp = (8 * Code.depth ran).toNat := by
  cases result with
  | foreseen overflows => exact Instr.eq_readConstant_of_fault?_eq_overflow overflows

theorem of_division (sound : Code.Sound bounds ran)
    (result : StepResult bounds ran instr sink (.error .divisionByZero last)) :
    instr = .arith .div .u64 := by
  cases result with
  | foreseen foreseen =>
      rcases sound.fault?_eq_some foreseen with impossible | impossible | impossible <;>
        cases impossible
  | division isDivision _ => exact isDivision

end WordMachine.StepResult

namespace Backend

variable {expr : Expr} {ty : Ty} {program : Program} {resources : Resources}
variable {after : Effects} {fault : Fault}

theorem events_eval_walker (expr : Expr) (resources : Resources) :
    (walker.eval expr resources).2 = #[] := by
  rw [eval, run]
  cases expr.check with
  | error error => rfl
  | ok ty =>
      simp only [bind, EStateM.bind, EStateM.adaptExcept, Effects.onSink]
      cases expr.evaluate {} <;> rfl

theorem events_eval_of_check_error {error : TypeError} (refused : expr.check = .error error) :
    (threaded.eval expr resources).2 = #[] := by
  simp only [eval, run, Expr.compile_of_check_error refused]
  rfl

def announced (program : Program) : Effects where
  events := #[.compiled program.pool.length program.code.size, .listed program.listing]

theorem run_threaded_of_compile (compiled : expr.compile = .ok program) :
    threaded.run expr resources {} =
      EStateM.adaptExcept RunError.runtime (program.run resources) (announced program) := by
  simp only [run, compiled]
  rfl

theorem eval_threaded_of_ok (compiled : expr.compile = .ok program)
    (ran : program.run resources (announced program) = .ok () after) :
    threaded.eval expr resources = (.ok after.sink.text, after.events) := by
  rw [eval, run_threaded_of_compile compiled, EStateM.adaptExcept, ran]

theorem eval_threaded_of_error (compiled : expr.compile = .ok program)
    (failed : program.run resources (announced program) = .error fault after) :
    threaded.eval expr resources = (.error (.runtime fault), after.events) := by
  rw [eval, run_threaded_of_compile compiled, EStateM.adaptExcept, failed]

theorem eval_threaded_mem (typed : expr.HasTy ty)
    (allocatable : resources.stackSize ≤ resources.memory)
    (failed : (threaded.eval expr resources).1 = .error (.runtime fault)) :
    fault = Fault.full resources.stackSize ∨ fault = .divisionByZero := by
  rw [eval_eq] at failed
  by_cases fits : 8 * expr.need ≤ resources.stackSize
  · rw [visible_threaded_of_fits typed allocatable fits, visible_walker typed] at failed
    cases defined : expr.reference with
    | none =>
        rw [typed.evaluate_of_none defined] at failed
        cases failed
        exact .inr rfl
    | some value =>
        rcases typed.evaluate_of_some defined with ⟨outcome, printed, evaluates⟩
        rw [evaluates] at failed
        cases failed
  · rcases visible_threaded_of_not_fits typed allocatable (Nat.not_le.mp fits) {} with
      overflows | ⟨-, divides⟩
    · rw [overflows] at failed
      cases failed
      exact .inl rfl
    · rw [divides] at failed
      cases failed
      exact .inr rfl

/-- The events of a run of a compiled expression, by what comes of it. A run that fails
stops with the event of the instruction at fault. -/
inductive Recorded (expr : Expr) (ty : Ty) (capacity : Nat) :
    Except RunError String → List Event → Prop where
  | finished (printed : String) :
      Recorded expr ty capacity (.ok printed)
        (announcements (expr.postorder.map Expr.instr) ++
          [.finished expr.size (if ty = .u64 then 8 else 0) (8 * expr.literals)])
  | overflow {ran : List Instr} :
      ran ++ [.readConstant .u64] <+: expr.postorder.map Expr.instr →
        Recorded expr ty capacity (.error (.runtime (Fault.full capacity)))
          (announcements ran ++ [.exec ran.length (.readConstant .u64) (8 * (capacity / 8))])
  | division {ran : List Instr} (sp : Nat) :
      ran ++ [.arith .div .u64] <+: expr.postorder.map Expr.instr →
        Recorded expr ty capacity (.error (.runtime .divisionByZero))
          (announcements ran ++ [.exec ran.length (.arith .div .u64) sp])

section

variable (typed : expr.HasTy ty) (compiled : expr.compile = .ok program)
variable (allocatable : resources.stackSize ≤ resources.memory)
include typed compiled allocatable

theorem recorded_of_ok (ran : program.run resources (announced program) = .ok () after) :
    ∃ execs, after.events.toList = (announced program).events.toList ++ execs ∧
      Recorded expr ty resources.stackSize (.ok after.sink.text) execs := by
  rcases Program.events_of_run_eq_ok allocatable ran with ⟨sp, depth, events⟩
  rcases Expr.compile_eq_ok_iff.mp compiled with ⟨-, rfl⟩
  refine ⟨_, events.trans (List.append_assoc _ _ _), ?_⟩
  rw [← Array.length_toList]
  simp only [Program.toList_code_append_empty] at depth ⊢
  have top : sp = if ty = .u64 then 8 else 0 := by
    rw [typed.depth_instrs] at depth
    by_cases number : ty = .u64
    · rw [if_pos number] at depth ⊢
      omega
    · rw [if_neg number] at depth ⊢
      omega
  rw [top, Expr.length_instrs, Expr.reads_instrs, Expr.instrs_eq_map_postorder]
  exact .finished after.sink.text

theorem recorded_of_error
    (failed : program.run resources (announced program) = .error fault after) :
    ∃ execs, after.events.toList = (announced program).events.toList ++ execs ∧
      Recorded expr ty resources.stackSize (.error (.runtime fault)) execs := by
  have answer := congrArg Prod.fst (eval_threaded_of_error compiled failed)
  rcases Program.exists_of_run_eq_error allocatable failed with
    ⟨ran, instr, unrun, sink, last, split, sound, result, events⟩
  rcases Expr.compile_eq_ok_iff.mp compiled with ⟨-, rfl⟩
  rw [Program.toList_code_append_empty, Expr.instrs_eq_map_postorder] at split
  have begun : ran ++ [instr] <+: expr.postorder.map Expr.instr :=
    ⟨unrun, (List.append_cons ..).symm.trans split.symm⟩
  rw [WordMachine.announcements_concat] at events
  refine ⟨_, events, ?_⟩
  rcases eval_threaded_mem typed allocatable answer with rfl | rfl
  · rcases result.of_overflow with ⟨rfl, top⟩
    rw [← top]
    exact .overflow begun
  · cases WordMachine.StepResult.of_division sound result
    exact .division _ begun

theorem exists_recorded :
    ∃ execs, (threaded.eval expr resources).2.toList =
        (announced program).events.toList ++ execs ∧
      Recorded expr ty resources.stackSize (threaded.eval expr resources).1 execs := by
  cases run : program.run resources (announced program) with
  | ok _ after =>
      rw [eval_threaded_of_ok compiled run]
      exact recorded_of_ok typed compiled allocatable run
  | error fault after =>
      rw [eval_threaded_of_error compiled run]
      exact recorded_of_error typed compiled allocatable run

end

theorem events_announced (compiled : expr.compile = .ok program) :
    (announced program).events.toList =
      [.compiled (8 * expr.literals) expr.size, .listed program.listing] := by
  rcases Expr.compile_eq_ok_iff.mp compiled with ⟨-, rfl⟩
  rw [announced, Program.length_pool_append_empty, Expr.length_constants,
    ← Array.length_toList, Program.toList_code_append_empty, Expr.length_instrs]

theorem eval_events (expr : Expr) (resources : Resources) :
    (walker.eval expr resources).2 = #[] ∧
      match expr.check with
      | .error _ => (threaded.eval expr resources).2 = #[]
      | .ok ty =>
          ∃ program execs, expr.compile = .ok program ∧
            (threaded.eval expr resources).2.toList =
              [.compiled (8 * expr.literals) expr.size, .listed program.listing] ++ execs ∧
            if resources.stackSize ≤ resources.memory then
              Recorded expr ty resources.stackSize (threaded.eval expr resources).1 execs
            else
              (threaded.eval expr resources).1 =
                  .error (.runtime (.stackAllocation resources.stackSize)) ∧ execs = [] := by
  refine ⟨events_eval_walker expr resources, ?_⟩
  cases checked : expr.check with
  | error error => exact events_eval_of_check_error checked
  | ok ty =>
      have typed := Expr.HasTy.of_check checked
      have compiled := typed.compile_eq
      by_cases allocatable : resources.stackSize ≤ resources.memory
      · rcases exists_recorded typed compiled allocatable with ⟨execs, events, recorded⟩
        rw [events_announced compiled] at events
        refine ⟨_, execs, compiled, events, ?_⟩
        rwa [if_pos allocatable]
      · have refused := eval_threaded_of_error compiled
          (Program.run_of_not_allocatable _ (Nat.not_le.mp allocatable) (announced _))
        refine ⟨_, [], compiled, ?_, ?_⟩
        · rw [refused, List.append_nil]
          exact events_announced compiled
        · rw [if_neg allocatable, refused]
          exact ⟨rfl, rfl⟩

end Backend

end ExprMachine

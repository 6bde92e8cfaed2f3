import ExprMachine.Proofs.Program.InTurn
import ExprMachine.Proofs.WordMachine.Hosting

/-! # The code of one expression within a larger run

Wherever its constants stand in a pool, and whatever lies on the stack, the code of an
expression does what the walker does. It reads no other constants, and adds to the stack
the bytes of its value and nothing else. -/

namespace ExprMachine

/-- The bytes that an expression of this type leaves on the stack when its number is
worth `value`. -/
def Ty.residue (value : Nat) : Ty → List UInt8
  | .none => []
  | .u64 => littleEndian 8 value

open WordMachine (Bounds Hosts)

namespace Expr

variable {expr : Expr} {ty : Ty} {value : Nat} {outcome : Option (Word 8)}
variable {sink after : Sink}

theorem HasTy.flatMap_bytes_of_evaluate (typed : expr.HasTy ty)
    (defined : expr.reference = some value)
    (evaluated : expr.evaluate sink = .ok outcome after) :
    outcome.toList.flatMap Word.bytes = ty.residue value := by
  have ends := evaluated ▸ typed.ends_evaluate sink
  cases ends with
  | ok describes =>
      cases describes with
      | nothing => rfl
      | number number =>
          have free := hasTy_u64_iff.mp typed
          rcases free.evaluate_of_some defined sink with ⟨same, rfl, evaluates⟩
          cases evaluates.symm.trans evaluated
          exact List.flatMap_singleton ..

theorem HasTy.exists_reference_eq_some (typed : expr.HasTy ty)
    (evaluated : expr.evaluate sink = .ok outcome after) :
    ∃ value, expr.reference = some value := by
  cases defined : expr.reference with
  | none => cases (typed.evaluate_of_none defined sink).symm.trans evaluated
  | some value => exact ⟨value, rfl⟩

/-! ## The expression alone on the word machine -/

def tightBounds (expr : Expr) : Bounds :=
  ⟨8 * expr.need, 0⟩

theorem capacity_tightBounds_div (expr : Expr) :
    (tightBounds expr).capacity / 8 = expr.need :=
  Nat.mul_div_cancel_left expr.need (by decide)

theorem evaluateWithin_tightBounds (expr : Expr) :
    expr.evaluateWithin (tightBounds expr).capacity 0 = expr.evaluate := by
  apply evaluateWithin_of_fits
  simp only [Nat.zero_add, capacity_tightBounds_div, Nat.le_refl]

theorem HasTy.runFrom_tightBounds_of_ok (typed : expr.HasTy ty)
    (evaluated : expr.evaluate sink = .ok outcome after) (pc : Nat) :
    ∃ events,
      WordMachine.runFrom (tightBounds expr) pc expr.instrs
          ⟨[], expr.constants, ⟨sink, #[]⟩⟩ =
        .ok () ⟨outcome.toList, [], ⟨after, events⟩⟩ := by
  rw [← evaluateWithin_tightBounds] at evaluated
  have onNothing : expr.evaluateWithin (tightBounds expr).capacity
    ([] : List (Word 8)).length sink = .ok outcome after := evaluated
  rcases typed.runFrom_of_ok onNothing pc [] [] #[] with ⟨events, run⟩
  simp only [List.append_nil] at run
  exact ⟨events, run⟩

theorem HasTy.runFrom_tightBounds_of_error {fault : Fault} (typed : expr.HasTy ty)
    (evaluated : expr.evaluate sink = .error fault after) (pc : Nat) :
    ∃ last, last.effects.sink = after ∧
      WordMachine.runFrom (tightBounds expr) pc expr.instrs
          ⟨[], expr.constants, ⟨sink, #[]⟩⟩ = .error fault last := by
  rw [← evaluateWithin_tightBounds] at evaluated
  have onNothing : expr.evaluateWithin (tightBounds expr).capacity
    ([] : List (Word 8)).length sink = .error fault after := evaluated
  have fails := typed.runFrom_of_error onNothing pc [] [] #[]
  simp only [List.append_nil] at fails
  exact fails

end Expr

namespace Backend

/-- What the code of an expression does to the machine around it, beside what the walker
answers. -/
inductive Transparent (expr : Expr) (ty : Ty) (program : Program)
    (before : Machine.State) :
    Except RunError String → EStateM.Result Fault Machine.State Unit → Prop where
  | ok {printed : String} {value : Nat} {after : Machine.State} :
      expr.reference = some value →
      after.stack.live = before.stack.live ++ ty.residue value →
      after.cursor.offset = before.cursor.offset + program.pool.length →
      after.effects.sink =
          { before.effects.sink with text := before.effects.sink.text ++ printed } →
        Transparent expr ty program before (.ok printed) (.ok () after)
  | division {after : Machine.State} :
      before.stack.live <+: after.stack.live →
      after.effects.sink = before.effects.sink →
        Transparent expr ty program before (.error (.runtime .divisionByZero))
          (.error .divisionByZero after)

variable {expr : Expr} {ty : Ty} {pool : ConstantPool} {state : Machine.State}

theorem hosts_tightBounds
    (room : state.stack.sp + 8 * expr.need ≤ state.stack.capacity)
    (copied : expr.constants.flatMap Word.bytes <+:
      pool.bytes.toList.drop state.cursor.offset) :
    Hosts expr.tightBounds state.stack.live
      (state.cursor.offset + 8 * expr.constants.length) pool state
      ⟨[], expr.constants, ⟨state.effects.sink, #[]⟩⟩ where
  room := by rwa [Stack.length_live, Expr.capacity_tightBounds_div]
  live := (List.append_nil _).symm
  constants := copied
  finish := rfl
  sink := rfl

theorem compile_transparent (checked : expr.check = .ok ty) :
    ∃ program, expr.compile = .ok program ∧
      ∀ (pool : ConstantPool) (pc : Nat) (state : Machine.State) (resources : Resources),
        state.effects.sink.room = none →
        state.stack.sp + 8 * expr.need ≤ state.stack.capacity →
        program.pool.bytes.toList <+: pool.bytes.toList.drop state.cursor.offset →
          Transparent expr ty program state (walker.eval expr resources).1
            (Machine.runFrom pool pc program.code.toList state) := by
  have typed := Expr.HasTy.of_check checked
  refine ⟨_, typed.compile_eq, fun pool pc state resources unlimited room copied => ?_⟩
  rcases state with ⟨stack, cursor, ⟨text, _⟩, events⟩
  cases unlimited
  rw [Program.toList_pool_append_empty] at copied
  rw [Program.toList_code_append_empty]
  have hosted := (hosts_tightBounds room copied).runFrom pc expr.instrs
  generalize Machine.runFrom pool pc expr.instrs _ = result at hosted ⊢
  rcases walker_eval_cases typed resources with
    ⟨outcome, printed, succeeds, evaluates⟩ | ⟨fails, divides⟩
  · rcases typed.exists_reference_eq_some (evaluates text) with ⟨value, defined⟩
    have bytes := typed.flatMap_bytes_of_evaluate defined (evaluates text)
    rcases typed.runFrom_tightBounds_of_ok (evaluates text) pc with ⟨_, run⟩
    rw [run] at hosted
    rw [succeeds]
    cases hosted with
    | ok hosts =>
        refine .ok defined ?_ ?_ hosts.sink
        · rw [hosts.live, ← bytes]
          cases outcome <;> rfl
        · rw [Program.length_pool_append_empty]
          exact hosts.finish
  · rcases typed.runFrom_tightBounds_of_error (divides text) pc with ⟨_, written, run⟩
    rw [run] at hosted
    rw [fails]
    cases hosted with
    | error _ hosts => exact .division ⟨_, hosts.live.symm⟩ (hosts.sink.trans written)
    | lacking lacks => exact (lacks trivial).elim

def amid : Machine.State where
  stack := {
    region := Region.store (Region.zeroed 24) 0 [9, 8, 7, 6, 5, 4, 3, 2]
    sp := 8
    sp_le_size := by decide }
  cursor := { offset := 3 }
  effects := { sink := { text := "before\n" } }

theorem compile_transparent_difference :
    let expr : Expr := .binary .sub (.value 1) (.value 2)
    let pool : ConstantPool := { bytes := #[1, 2, 3, 2, 0, 0, 0, 0, 0, 0, 0,
      1, 0, 0, 0, 0, 0, 0, 0, 4] }
    expr.check = .ok .u64 ∧ ∃ program, expr.compile = .ok program ∧
      amid.stack.sp + 8 * expr.need ≤ amid.stack.capacity ∧
      program.pool.bytes.toList <+: pool.bytes.toList.drop amid.cursor.offset ∧
      ∃ after, Machine.runFrom pool 5 program.code.toList amid = .ok () after ∧
        after.stack.live =
          [9, 8, 7, 6, 5, 4, 3, 2, 255, 255, 255, 255, 255, 255, 255, 255] ∧
        after.cursor.offset = 19 ∧ after.effects.sink.text = "before\n" := by
  intro expr pool
  have checked : expr.check = .ok .u64 := rfl
  rcases compile_transparent checked with ⟨program, compiled, transparent⟩
  cases compiled.symm.trans (Expr.HasTy.of_check checked).compile_eq
  have room : amid.stack.sp + 8 * expr.need ≤ amid.stack.capacity := by decide
  have copied :
      (({} : Program).append expr.constants expr.instrs).pool.bytes.toList <+:
        pool.bytes.toList.drop amid.cursor.offset := by decide
  refine ⟨checked, _, compiled, room, copied, ?_⟩
  have same := transparent pool 5 amid {} rfl room copied
  have answers : (walker.eval expr {}).1 = .ok "" := rfl
  rw [answers] at same
  generalize Machine.runFrom pool 5 _ amid = result at same ⊢
  cases same with
  | ok defined live offset sink =>
      have worth : expr.reference = some (2 ^ 64 - 1) := by decide
      cases worth.symm.trans defined
      have words : expr.constants.length = 2 := rfl
      rw [Program.length_pool_append_empty, words] at offset
      exact ⟨_, rfl, live.trans (by decide +kernel), offset, congrArg (·.text) sink⟩

end Backend

end ExprMachine

import ExprMachine.Proofs.Expr.Emission
import ExprMachine.Proofs.WordMachine.Basic

/-! # Decompilation

A program is read back into the expressions that it was made from. Its instructions are
gone through once, from the front, and the expressions that are complete by then are kept
on a stack. Compilation is undone in this way, so different expressions never compile to
the same program. -/

namespace ExprMachine

namespace Decompiler

structure State where
  /-- The constants that no instruction has read yet. -/
  constants : List (Word 8)
  /-- The expressions that are complete, the last of them first. -/
  exprs : List Expr

/-- An instruction that no compiled program has in this place is refused. -/
def step : Instr → State → Option State
  | .readConstant _, ⟨constant :: constants, exprs⟩ =>
      some ⟨constants, .value constant :: exprs⟩
  | .arith op scalar, ⟨constants, left :: right :: exprs⟩ =>
      if left.ty = scalar.ty ∧ right.ty = scalar.ty then
        some ⟨constants, .binary op left right :: exprs⟩
      else
        none
  | .print ty, ⟨constants, operand :: exprs⟩ =>
      if operand.ty = ty then some ⟨constants, .print operand :: exprs⟩ else none
  | _, _ => none

def run : List Instr → State → Option State
  | [], state => some state
  | instr :: code, state => (step instr state).bind (run code)

theorem run_cons_of_step {state after : State} {instr : Instr}
    (stepped : step instr state = some after) (code : List Instr) :
    run (instr :: code) state = run code after := by
  rw [run, stepped, Option.bind_some]

variable {expr : Expr} {ty : Ty} {exprs : List Expr}

theorem run_instrs_append (typed : expr.HasTy ty) (code : List Instr)
    (constants : List (Word 8)) (exprs : List Expr) :
    run (expr.instrs ++ code) ⟨expr.constants ++ constants, exprs⟩ =
      run code ⟨constants, expr :: exprs⟩ := by
  induction typed generalizing code constants exprs with
  | value number => exact run_cons_of_step rfl code
  | @binary op left right leftTyped rightTyped leftRun rightRun =>
      have joined : step (.arith op .u64) ⟨constants, left :: right :: exprs⟩ =
          some ⟨constants, .binary op left right :: exprs⟩ :=
        if_pos ⟨leftTyped.ty_eq, rightTyped.ty_eq⟩
      rw [Expr.instrs_binary_append, Expr.constants_binary_append, rightRun, leftRun,
        run_cons_of_step joined]
  | @print operand ty operandTyped operandRun =>
      have printed : step (.print operand.ty) ⟨constants, operand :: exprs⟩ =
          some ⟨constants, .print operand :: exprs⟩ := if_pos rfl
      rw [Expr.instrs_print_append, Expr.constants, operandRun, run_cons_of_step printed]

theorem run_flatMap_instrs (typed : ∀ expr ∈ exprs, expr.HasTy expr.ty)
    (before : List Expr) :
    run (exprs.flatMap Expr.instrs) ⟨exprs.flatMap Expr.constants, before⟩ =
      some ⟨[], exprs.reverse ++ before⟩ := by
  induction exprs generalizing before with
  | nil => rfl
  | cons expr exprs induction =>
      rcases List.forall_mem_cons.mp typed with ⟨exprTyped, othersTyped⟩
      rw [List.flatMap_cons, List.flatMap_cons, run_instrs_append exprTyped,
        induction othersTyped, List.reverse_cons, List.append_assoc, List.singleton_append]

end Decompiler

namespace Program

/-- The expressions that a program was made from, in order. -/
def decompile (program : Program) : Option (List Expr) :=
  let constants := Word.split 8 program.pool.bytes.toList
  match Decompiler.run program.code.toList ⟨constants, []⟩ with
  | some ⟨[], exprs⟩ => some exprs.reverse
  | _ => none

variable {exprs : List Expr}

theorem decompile_append_flatMap (typed : ∀ expr ∈ exprs, expr.HasTy expr.ty) :
    (({} : Program).append (exprs.flatMap Expr.constants)
      (exprs.flatMap Expr.instrs)).decompile = some exprs := by
  have constants : Word.split 8 ((exprs.flatMap Expr.constants).flatMap Word.bytes) =
      exprs.flatMap Expr.constants := Word.split_flatMap_bytes (by decide) _
  simp [decompile, append, constants, Decompiler.run_flatMap_instrs typed]

theorem decompile_ofExprs (exprs : List Expr) :
    (ofExprs exprs).decompile = some (accepted exprs {}) := by
  rw [ofExprs_eq_extendedBy, extendedBy_eq]
  exact decompile_append_flatMap fun expr member => hasTy_of_mem_accepted exprs {} member

theorem decompile_of_compile_eq_ok {expr : Expr} {program : Program}
    (compiled : expr.compile = .ok program) : program.decompile = some [expr] := by
  rcases Expr.compile_eq_ok_iff.mp compiled with ⟨typed, rfl⟩
  have decompiled := decompile_append_flatMap (List.forall_mem_singleton.mpr typed)
  rwa [List.flatMap_singleton, List.flatMap_singleton] at decompiled

theorem ofExprs_injective :
    (∀ exprs others : List Expr, accepted exprs {} = exprs → accepted others {} = others →
      (ofExprs exprs = ofExprs others ↔ exprs = others)) ∧
    ∀ expr other : Expr, expr.compile.isOk →
      (expr.compile = other.compile ↔ expr = other) := by
  constructor
  · intro exprs others exprsAccepted othersAccepted
    constructor
    · intro same
      have decompiled := decompile_ofExprs exprs
      rw [same, decompile_ofExprs, exprsAccepted, othersAccepted] at decompiled
      exact (Option.some.inj decompiled).symm
    · rintro rfl
      rfl
  · intro expr other exprAccepted
    constructor
    · intro same
      cases compiled : expr.compile with
      | error error =>
          rw [compiled] at exprAccepted
          cases exprAccepted
      | ok program =>
          have decompiled := decompile_of_compile_eq_ok compiled
          rw [decompile_of_compile_eq_ok (same.symm.trans compiled)] at decompiled
          exact (List.singleton_inj.mp (Option.some.inj decompiled)).symm
    · rintro rfl
      rfl

/-- The constants are the same, in the same order. What tells the programs apart is the
place of one instruction. -/
theorem ofExprs_injective_grouping :
    let number (value : Word 8) := Expr.value value
    let left : Expr := .binary .sub (.binary .sub (number 1) (number 2)) (number 3)
    let right : Expr := .binary .sub (number 1) (.binary .sub (number 2) (number 3))
    let exprs : List Expr := [number 4, .print left]
    let others : List Expr := [number 4, .print right]
    (accepted exprs {} = exprs ∧ accepted others {} = others ∧
        ofExprs exprs ≠ ofExprs others) ∧
      left.compile.isOk ∧ left.compile ≠ right.compile := by
  intro number left right exprs others
  have general := ofExprs_injective
  have exprsAccepted : accepted exprs {} = exprs := rfl
  have othersAccepted : accepted others {} = others := rfl
  have sequences := general.1 exprs others exprsAccepted othersAccepted
  have single := general.2 left right rfl
  exact ⟨⟨exprsAccepted, othersAccepted, mt sequences.mp (by decide)⟩, rfl,
    mt single.mp (by decide)⟩

end Program

end ExprMachine

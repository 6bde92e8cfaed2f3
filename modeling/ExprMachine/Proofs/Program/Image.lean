import ExprMachine.Proofs.Code.Counts
import ExprMachine.Proofs.Program.Decompilation
import ExprMachine.Proofs.WordMachine.Sequence

/-! # Which programs are compiled

Whether a program was made from expressions is seen in one pass over its code, with
nothing but the types of what lies on the stack. A program that passes decompiles into
well-typed expressions, and these compile to the same bytes and instructions again. -/

namespace ExprMachine

/-! ## The pass over the code -/

/-- The types on the stack after an instruction that suits those before it. The topmost
type stands first. -/
def Instr.retype : Instr → List Ty → Option (List Ty)
  | .readConstant scalar, types => some (scalar.ty :: types)
  | .arith _ scalar, left :: right :: types =>
      if left = scalar.ty ∧ right = scalar.ty then some (scalar.ty :: types) else none
  | .print ty, top :: types => if top = ty then some (.none :: types) else none
  | _, _ => none

def Code.retype : List Instr → List Ty → Option (List Ty)
  | [], types => some types
  | instr :: code, types => (instr.retype types).bind (retype code)

namespace Decompiler

/-! ## The steps of the decompiler -/

variable {instr : Instr} {code : List Instr} {state before after : State} {types : List Ty}

inductive Steps : Instr → State → State → Prop where
  | readConstant (scalar : Scalar) (constant : Word 8) (constants : List (Word 8))
      (exprs : List Expr) :
      Steps (.readConstant scalar) ⟨constant :: constants, exprs⟩
        ⟨constants, .value constant :: exprs⟩
  | arith (op : BinOp) {scalar : Scalar} {left right : Expr}
      (constants : List (Word 8)) (exprs : List Expr) :
      left.ty = scalar.ty → right.ty = scalar.ty →
        Steps (.arith op scalar) ⟨constants, left :: right :: exprs⟩
          ⟨constants, .binary op left right :: exprs⟩
  | print (operand : Expr) (constants : List (Word 8)) (exprs : List Expr) :
      Steps (.print operand.ty) ⟨constants, operand :: exprs⟩
        ⟨constants, .print operand :: exprs⟩

theorem steps_of_step (stepped : step instr before = some after) :
    Steps instr before after := by
  rw [step.eq_def] at stepped
  split at stepped
  · cases stepped
    exact .readConstant _ _ _ _
  · split at stepped
    · rename_i suits
      cases stepped
      exact .arith _ _ _ suits.1 suits.2
    · cases stepped
  · split at stepped
    · rename_i suits
      cases stepped
      subst suits
      exact .print _ _ _
    · cases stepped
  · cases stepped

theorem Steps.step_eq (steps : Steps instr before after) :
    step instr before = some after := by
  cases steps with
  | readConstant scalar constant constants exprs => rfl
  | arith op constants exprs leftTy rightTy => exact if_pos ⟨leftTy, rightTy⟩
  | print operand constants exprs => exact if_pos rfl

/-! ## Nothing is lost -/

/-- The expressions that are complete are well typed, and together with the constants that
are left they spell what has been gone through. -/
structure Spells (state : State) (constants : List (Word 8)) (code : List Instr) :
    Prop where
  typed : ∀ expr ∈ state.exprs, expr.HasTy expr.ty
  constants : state.exprs.reverse.flatMap Expr.constants ++ state.constants = constants
  code : state.exprs.reverse.flatMap Expr.instrs = code

theorem Steps.spells {constants : List (Word 8)} (steps : Steps instr before after)
    (spells : Spells before constants code) : Spells after constants (code ++ [instr]) := by
  rcases spells with ⟨typed, rfl, rfl⟩
  cases steps with
  | readConstant scalar constant constants exprs =>
      refine ⟨List.forall_mem_cons.mpr ⟨.value constant, typed⟩, ?_, ?_⟩
      · simp [Expr.constants]
      · cases scalar
        simp [Expr.instrs]
  | @arith op scalar left right constants exprs leftTy rightTy =>
      rcases List.forall_mem_cons.mp typed with ⟨leftTyped, typed⟩
      rcases List.forall_mem_cons.mp typed with ⟨rightTyped, typed⟩
      cases scalar
      rw [leftTy] at leftTyped
      rw [rightTy] at rightTyped
      have binaryTyped := Expr.HasTy.binary op leftTyped rightTyped
      refine ⟨List.forall_mem_cons.mpr ⟨binaryTyped.ty_eq ▸ binaryTyped, typed⟩, ?_, ?_⟩
      · simp [Expr.constants]
      · simp [Expr.instrs]
  | print operand constants exprs =>
      rcases List.forall_mem_cons.mp typed with ⟨operandTyped, typed⟩
      refine ⟨List.forall_mem_cons.mpr ⟨.print operandTyped, typed⟩, ?_, ?_⟩
      · simp [Expr.constants]
      · simp [Expr.instrs]

theorem spells_of_run {constants : List (Word 8)} {gone : List Instr}
    (run : Decompiler.run code before = some after) (spells : Spells before constants gone) :
    Spells after constants (gone ++ code) := by
  induction code generalizing before gone with
  | nil =>
      cases run
      rwa [List.append_nil]
  | cons instr code induction =>
      rcases Option.bind_eq_some_iff.mp run with ⟨middle, stepped, run⟩
      rw [List.append_cons]
      exact induction run ((steps_of_step stepped).spells spells)

/-! ## The pass foresees the decompiler -/

theorem Steps.retype_eq (steps : Steps instr before after) :
    instr.retype (before.exprs.map Expr.ty) = some (after.exprs.map Expr.ty) := by
  cases steps with
  | readConstant scalar constant constants exprs =>
      cases scalar
      rfl
  | arith op constants exprs leftTy rightTy =>
      simp [Instr.retype, Expr.ty, leftTy, rightTy]
  | print operand constants exprs => simp [Instr.retype, Expr.ty]

theorem Steps.length_constants (steps : Steps instr before after) :
    before.constants.length = instr.isRead.toNat + after.constants.length := by
  cases steps with
  | readConstant scalar constant constants exprs => exact Nat.add_comm _ 1
  | arith op constants exprs leftTy rightTy => exact (Nat.zero_add _).symm
  | print operand constants exprs => exact (Nat.zero_add _).symm

theorem exists_steps (retyped : instr.retype (before.exprs.map Expr.ty) = some types)
    (enough : instr.isRead.toNat ≤ before.constants.length) :
    ∃ after, Steps instr before after := by
  rcases before with ⟨constants, exprs⟩
  cases instr with
  | readConstant scalar =>
      cases constants with
      | nil => exact absurd enough (Nat.not_succ_le_zero 0)
      | cons constant constants => exact ⟨_, .readConstant scalar constant constants exprs⟩
  | arith op scalar =>
      match exprs with
      | [] => cases retyped
      | [_] => cases retyped
      | left :: right :: exprs =>
          simp only [List.map_cons, Instr.retype] at retyped
          split at retyped
          · rename_i suits
            exact ⟨_, .arith op constants exprs suits.1 suits.2⟩
          · cases retyped
  | print ty =>
      cases exprs with
      | nil => cases retyped
      | cons operand exprs =>
          simp only [List.map_cons, Instr.retype] at retyped
          split at retyped
          · rename_i suits
            subst suits
            exact ⟨_, .print operand constants exprs⟩
          · cases retyped

theorem retype_of_run (run : Decompiler.run code before = some after) :
    Code.retype code (before.exprs.map Expr.ty) = some (after.exprs.map Expr.ty) ∧
      before.constants.length = Code.reads code + after.constants.length := by
  induction code generalizing before with
  | nil =>
      cases run
      exact ⟨rfl, (Nat.zero_add _).symm⟩
  | cons instr code induction =>
      rcases Option.bind_eq_some_iff.mp run with ⟨middle, stepped, run⟩
      have steps := steps_of_step stepped
      rcases induction run with ⟨retyped, length⟩
      refine ⟨?_, ?_⟩
      · rw [Code.retype, steps.retype_eq, Option.bind_some, retyped]
      · rw [steps.length_constants, length, Code.reads_cons, Nat.add_assoc]

theorem exists_run (retyped : Code.retype code (before.exprs.map Expr.ty) = some types)
    (enough : Code.reads code ≤ before.constants.length) :
    ∃ after, Decompiler.run code before = some after := by
  induction code generalizing before with
  | nil => exact ⟨before, rfl⟩
  | cons instr code induction =>
      rcases Option.bind_eq_some_iff.mp retyped with ⟨middleTypes, instrRetyped, retyped⟩
      rw [Code.reads_cons] at enough
      rcases exists_steps instrRetyped (by omega) with ⟨middle, steps⟩
      have length := steps.length_constants
      rw [steps.retype_eq] at instrRetyped
      cases instrRetyped
      rcases induction retyped (by omega) with ⟨after, run⟩
      exact ⟨after, (run_cons_of_step steps.step_eq code).trans run⟩

end Decompiler

namespace Program

variable {program : Program} {exprs : List Expr}

theorem accepted_of_typed (typed : ∀ expr ∈ exprs, expr.HasTy expr.ty)
    (program : Program) : accepted exprs program = exprs := by
  induction exprs generalizing program with
  | nil => rfl
  | cons expr exprs induction =>
      rcases List.forall_mem_cons.mp typed with ⟨exprTyped, othersTyped⟩
      rw [accepted_cons_of_hasTy exprs program exprTyped, induction othersTyped]

theorem run_of_decompile (decompiled : program.decompile = some exprs) :
    Decompiler.run program.code.toList
      ⟨Word.split 8 program.pool.bytes.toList, []⟩ = some ⟨[], exprs.reverse⟩ := by
  rw [decompile] at decompiled
  split at decompiled
  · rename_i run
    cases decompiled
    rw [run, List.reverse_reverse]
  · cases decompiled

theorem append_empty_split (whole : 8 ∣ program.pool.length) :
    ({} : Program).append (Word.split 8 program.pool.bytes.toList) program.code.toList =
      program := by
  have bytes := Word.flatMap_bytes_split (by decide : 0 < 8) whole
  simp [append, bytes]

theorem ofExprs_of_decompile (whole : 8 ∣ program.pool.length)
    (decompiled : program.decompile = some exprs) :
    accepted exprs {} = exprs ∧ ofExprs exprs = program := by
  have spells := Decompiler.spells_of_run (run_of_decompile decompiled)
    ⟨fun _ member => absurd member List.not_mem_nil, rfl, rfl⟩
  have allAccepted : accepted exprs {} = exprs :=
    accepted_of_typed (fun expr member => spells.typed expr (List.mem_reverse.mpr member)) {}
  have constants : exprs.flatMap Expr.constants = Word.split 8 program.pool.bytes.toList := by
    simpa using spells.constants
  have code : exprs.flatMap Expr.instrs = program.code.toList := by
    simpa using spells.code
  refine ⟨allAccepted, ?_⟩
  rw [ofExprs_eq_extendedBy, extendedBy_eq, allAccepted, constants, code,
    append_empty_split whole]

theorem decompile_of_ofExprs (allAccepted : accepted exprs {} = exprs)
    (same : ofExprs exprs = program) : program.decompile = some exprs := by
  rw [← same, decompile_ofExprs, allAccepted]

theorem length_pool_ofExprs (exprs : List Expr) : 8 ∣ (ofExprs exprs).pool.length := by
  rw [ofExprs_eq_extendedBy, extendedBy_eq, length_pool_append_empty]
  exact Nat.dvd_mul_right 8 _

theorem retype_of_decompile (decompiled : program.decompile = some exprs) :
    Code.retype program.code.toList [] = some (exprs.map Expr.ty).reverse ∧
      program.pool.length / 8 = Code.reads program.code.toList := by
  have retyped := Decompiler.retype_of_run (run_of_decompile decompiled)
  rwa [List.map_nil, List.map_reverse, Word.length_split, Array.length_toList] at retyped

theorem decompile_of_retype {types : List Ty}
    (length : program.pool.length = 8 * Code.reads program.code.toList)
    (retyped : Code.retype program.code.toList [] = some types) :
    ∃ exprs, program.decompile = some exprs := by
  let before : Decompiler.State := ⟨Word.split 8 program.pool.bytes.toList, []⟩
  have enough : before.constants.length = Code.reads program.code.toList := by
    rw [Word.length_split, Array.length_toList, ← ConstantPool.length, length]
    exact Nat.mul_div_cancel_left _ (by decide)
  have reaches : ∃ after, Decompiler.run program.code.toList before = some after :=
    Decompiler.exists_run retyped (Nat.le_of_eq enough.symm)
  rcases reaches with ⟨after, run⟩
  -- Every constant has been read, since there is one for each instruction that reads.
  have empty : after.constants = [] := by
    have spent := (Decompiler.retype_of_run run).2
    exact List.length_eq_zero_iff.mp (by omega)
  rcases after with ⟨_, exprs⟩
  cases empty
  refine ⟨exprs.reverse, ?_⟩
  rw [decompile, run]

/-- The programs that are made from expressions, all of them accepted, are told by one pass
over their code. -/
theorem exists_ofExprs_eq_iff (program : Program) :
    ((∃ exprs, accepted exprs {} = exprs ∧ ofExprs exprs = program) ↔
      program.pool.length = 8 * Code.reads program.code.toList ∧
        (Code.retype program.code.toList []).isSome) ∧
    ∀ exprs, accepted exprs {} = exprs → ofExprs exprs = program →
      Code.retype program.code.toList [] = some (exprs.map Expr.ty).reverse := by
  refine ⟨⟨?_, ?_⟩, ?_⟩
  · rintro ⟨exprs, allAccepted, same⟩
    rcases retype_of_decompile (decompile_of_ofExprs allAccepted same) with
      ⟨retyped, length⟩
    have whole := same ▸ length_pool_ofExprs exprs
    rw [retyped]
    exact ⟨by omega, rfl⟩
  · rintro ⟨length, passes⟩
    rcases Option.isSome_iff_exists.mp passes with ⟨types, retyped⟩
    rcases decompile_of_retype length retyped with ⟨exprs, decompiled⟩
    exact ⟨exprs, ofExprs_of_decompile ⟨_, length⟩ decompiled⟩
  · intro exprs allAccepted same
    exact (retype_of_decompile (decompile_of_ofExprs allAccepted same)).1

def numberThenPrint : List Expr :=
  [.value 4, .print (.binary .sub (.value 5) (.value 3))]

theorem exists_ofExprs_eq_iff_numberThenPrint :
    (accepted numberThenPrint {} = numberThenPrint ∧
        (ofExprs numberThenPrint).pool.length =
          8 * Code.reads (ofExprs numberThenPrint).code.toList) ∧
      Code.retype (ofExprs numberThenPrint).code.toList [] = some [.none, .u64] := by
  have general := exists_ofExprs_eq_iff (ofExprs numberThenPrint)
  have allAccepted : accepted numberThenPrint {} = numberThenPrint := rfl
  have passes := general.1.mp ⟨numberThenPrint, allAccepted, rfl⟩
  exact ⟨⟨allAccepted, passes.1⟩, general.2 numberThenPrint allAccepted rfl⟩

end Program

end ExprMachine

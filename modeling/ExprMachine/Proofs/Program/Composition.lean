import ExprMachine.Proofs.Expr.Emission

/-! # Programs put together

To extend a program by an expression is to put after it what the expression compiles to
on its own, or to leave it alone. So the outcome of an extension depends on nothing but
the expression, and a program of several expressions is their programs in a row. -/

namespace ExprMachine.Program

def followedBy (program other : Program) : Program where
  pool := { bytes := program.pool.bytes ++ other.pool.bytes }
  code := program.code ++ other.code

def concat (programs : List Program) : Program :=
  programs.foldr followedBy {}

variable {program : Program}

@[simp] theorem followedBy_empty : program.followedBy {} = program := by
  simp [followedBy]

@[simp] theorem empty_followedBy : ({} : Program).followedBy program = program := by
  simp [followedBy]

theorem followedBy_assoc (first second third : Program) :
    (first.followedBy second).followedBy third =
      first.followedBy (second.followedBy third) := by
  simp only [followedBy, Array.append_assoc]

theorem append_eq_followedBy (constants : List (Word 8)) (instrs : List Instr) :
    program.append constants instrs =
      program.followedBy (({} : Program).append constants instrs) := by
  simp [append, followedBy]

theorem extend_eq (expr : Expr) (program : Program) :
    extend expr program =
      match expr.compile with
      | .ok fresh => .ok () (program.followedBy fresh)
      | .error error => .error error program := by
  cases checked : expr.check with
  | error error =>
      rw [Expr.compile_of_check_error checked, extend_of_check_error checked]
  | ok ty =>
      have typed := Expr.HasTy.of_check checked
      rw [typed.compile_eq, extend_of_hasTy typed, append_eq_followedBy]

theorem map_fst_extendAll (exprs : List Expr) (program : Program) :
    (extendAll exprs program).map (·.1) =
      exprs.map fun expr => expr.compile.map fun _ => () := by
  induction exprs generalizing program with
  | nil => rfl
  | cons expr exprs induction =>
      rw [extendAll, session, extend_eq, List.map_cons, List.map_cons]
      cases expr.compile with
      | ok fresh => exact congrArg (_ :: ·) (induction (program.followedBy fresh))
      | error error => exact congrArg (_ :: ·) (induction program)

theorem exists_extendedBy_eq_concat (exprs : List Expr) (program : Program) :
    ∃ programs, (accepted exprs program).map Expr.compile = programs.map .ok ∧
      extendedBy exprs program = program.followedBy (concat programs) := by
  induction exprs generalizing program with
  | nil => exact ⟨[], rfl, followedBy_empty.symm⟩
  | cons expr exprs induction =>
      rw [extendedBy_cons]
      cases checked : expr.check with
      | error error =>
          rw [extend_of_check_error checked,
            accepted_cons_of_check_error exprs program checked]
          exact induction program
      | ok ty =>
          have typed := Expr.HasTy.of_check checked
          rw [extend_of_hasTy typed, accepted_cons_of_hasTy exprs program typed,
            append_eq_followedBy, List.map_cons, typed.compile_eq]
          rcases induction (program.followedBy
            (({} : Program).append expr.constants expr.instrs)) with
            ⟨programs, compiled, same⟩
          refine ⟨({} : Program).append expr.constants expr.instrs :: programs, ?_, ?_⟩
          · rw [compiled, List.map_cons]
          · exact same.trans (followedBy_assoc _ _ _)

/-- An expression that is refused leaves the program as it was; one that is accepted adds
its own program at the end, whatever the program was before. -/
theorem extend_compositional :
    (∀ expr program, extend expr program =
      match expr.compile with
      | .ok fresh => .ok () (program.followedBy fresh)
      | .error error => .error error program) ∧
    ∀ exprs,
      (extendAll exprs {}).map (·.1) =
          exprs.map (fun expr => expr.compile.map fun _ => ()) ∧
        ∃ programs, (accepted exprs {}).map Expr.compile = programs.map .ok ∧
          ofExprs exprs = concat programs := by
  refine ⟨extend_eq, fun exprs => ⟨map_fst_extendAll exprs {}, ?_⟩⟩
  rcases exists_extendedBy_eq_concat exprs {} with ⟨programs, compiled, same⟩
  rw [empty_followedBy] at same
  exact ⟨programs, compiled, (ofExprs_eq_extendedBy exprs).trans same⟩

end ExprMachine.Program

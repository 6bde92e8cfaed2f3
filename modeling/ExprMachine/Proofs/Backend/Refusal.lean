import ExprMachine.Proofs.Backend.Agreement

/-! # Expressions that are refused

The checker and the compiler go through an expression on their own, and refuse it for
the same reason or not at all. So both backends refuse the same expressions. -/

namespace ExprMachine

/-- What the checker answers is what came of the compilation, with the type in place of
the program. -/
theorem Expr.check_eq_map_compile (expr : Expr) :
    expr.check = expr.compile.map fun _ => expr.ty := by
  cases checked : expr.check with
  | error error =>
      rw [compile_of_check_error checked]
      rfl
  | ok ty =>
      have typed := HasTy.of_check checked
      rw [typed.compile_eq, ← typed.ty_eq]
      rfl

namespace Backend

theorem settle_ne_compile_error {α : Type} (result : EStateM.Result Fault Sink α)
    (error : TypeError) : (settle result).1 ≠ .error (.compile error) := by
  cases result <;> simp [settle]

variable {expr : Expr} {ty : Ty}

theorem visible_ne_compile_error (typed : expr.HasTy ty) (backend : Backend)
    (resources : Resources) (effects : Effects) (error : TypeError) :
    (visible backend expr resources effects).1 ≠ .error (.compile error) := by
  cases backend with
  | walker =>
      rw [visible_walker typed]
      exact settle_ne_compile_error _ error
  | threaded =>
      by_cases allocatable : resources.stackSize ≤ resources.memory
      · rw [visible_threaded_of_allocatable typed allocatable]
        exact settle_ne_compile_error _ error
      · rw [visible_threaded_of_not_allocatable typed (Nat.not_le.mp allocatable)]
        simp

theorem visible_eq_compile_error_iff (backend : Backend) (expr : Expr)
    (resources : Resources) (effects : Effects) (error : TypeError) :
    (visible backend expr resources effects).1 = .error (.compile error) ↔
      expr.check = .error error := by
  cases checked : expr.check with
  | error reason =>
      rw [visible_of_check_error checked]
      simp
  | ok ty =>
      have typed := Expr.HasTy.of_check checked
      simp [visible_ne_compile_error typed]

theorem check_agrees_with_compile (expr : Expr) :
    expr.check = expr.compile.map (fun _ => expr.ty) ∧
      ∀ (backend : Backend) (resources : Resources) (effects : Effects)
        (error : TypeError),
        (visible backend expr resources effects).1 = .error (.compile error) ↔
          expr.check = .error error :=
  ⟨expr.check_eq_map_compile, fun backend => visible_eq_compile_error_iff backend expr⟩

end Backend

end ExprMachine

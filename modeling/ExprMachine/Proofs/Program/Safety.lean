import ExprMachine.Proofs.WordMachine.Sequence

/-! # Compiled programs never misread their memory

Whatever expressions a program was extended by, and whichever of them were refused, a
run of it neither pops from a stack that is too short nor reads past its constants. -/

namespace ExprMachine

namespace Expr

variable {exprs : List Expr} {capacity depth last : Nat} {sink after : Sink}

theorem length_toList_of_evaluateWithin {expr : Expr} {ty : Ty} {value : Option (Word 8)}
    (typed : expr.HasTy ty)
    (evaluated : expr.evaluateWithin capacity depth sink = .ok value after) :
    value.toList.length = if ty = .u64 then 1 else 0 := by
  have shape := typed.isSome_of_evaluateWithin evaluated
  cases ty with
  | none =>
      cases value with
      | none => rfl
      | some number => cases shape
  | u64 =>
      cases value with
      | none => cases shape
      | some number => rfl

theorem inside_of_evaluateWithin {expr : Expr} {ty : Ty} {value : Option (Word 8)}
    (typed : expr.HasTy ty) (inside : depth ≤ capacity / 8)
    (evaluated : expr.evaluateWithin capacity depth sink = .ok value after) :
    depth + value.toList.length ≤ capacity / 8 := by
  have fits := typed.fits_of_evaluateWithin inside evaluated
  have positive := expr.need_pos
  rw [length_toList_of_evaluateWithin typed evaluated]
  split <;> omega

theorem depth_of_evaluateAllWithin (typed : ∀ expr ∈ exprs, expr.HasTy expr.ty)
    (evaluated : evaluateAllWithin capacity depth exprs sink = .ok last after) :
    last = depth + exprs.countP (·.ty = .u64) := by
  induction exprs generalizing depth sink with
  | nil =>
      cases evaluated
      rfl
  | cons expr exprs induction =>
      simp only [evaluateAllWithin, EStateM.bind_eq_ok_iff] at evaluated
      rcases evaluated with ⟨value, middle, first, others⟩
      rcases List.forall_mem_cons.mp typed with ⟨exprTyped, othersTyped⟩
      rw [induction othersTyped others, length_toList_of_evaluateWithin exprTyped first,
        List.countP_cons]
      simp only [decide_eq_true_eq]
      omega

theorem fault_of_evaluateAllWithin {fault : Fault}
    (typed : ∀ expr ∈ exprs, expr.HasTy expr.ty) (inside : depth ≤ capacity / 8)
    (failed : evaluateAllWithin capacity depth exprs sink = .error fault after) :
    fault = Fault.full capacity ∨ fault = .divisionByZero ∨ fault = .output := by
  induction exprs generalizing depth sink with
  | nil => cases failed
  | cons expr exprs induction =>
      rcases List.forall_mem_cons.mp typed with ⟨exprTyped, othersTyped⟩
      simp only [evaluateAllWithin, EStateM.bind_eq_error_iff] at failed
      rcases failed with exprFailed | ⟨value, middle, first, others⟩
      · exact exprTyped.fault_of_evaluateWithin inside exprFailed
      · have room := inside_of_evaluateWithin exprTyped inside first
        exact induction othersTyped room others

end Expr

namespace Program

/-- A run that succeeds ends with one word on the stack for each number among the
accepted expressions, and has read the whole pool. -/
theorem ofExprs_run_safe (exprs : List Expr) (resources : Resources) (effects : Effects) :
    match (ofExprs exprs).run resources effects with
    | .ok _ after =>
        after.events.back? = some (.finished (ofExprs exprs).code.size
          (8 * (accepted exprs {}).countP (·.ty = .u64)) (ofExprs exprs).pool.length)
    | .error fault _ =>
        (∀ sp size, fault ≠ .stackUnderflow sp size) ∧
          ∀ offset size length, fault ≠ .corruptPool offset size length := by
  by_cases allocatable : resources.stackSize ≤ resources.memory
  · have typed : ∀ expr ∈ accepted exprs {}, expr.HasTy expr.ty :=
      fun expr member => hasTy_of_mem_accepted exprs {} member
    rw [ofExprs_eq_extendedBy, extendedBy_eq]
    rcases effects with ⟨sink, events⟩
    cases evaluated :
      Expr.evaluateAllWithin resources.stackSize 0 (accepted exprs {}) sink with
    | ok depth after =>
        rcases run_flatMap_of_ok allocatable typed evaluated events with ⟨moreEvents, run⟩
        have length := Expr.depth_of_evaluateAllWithin typed evaluated
        rw [run]
        simp [length]
    | error fault after =>
        rcases run_flatMap_of_error allocatable typed evaluated events with
          ⟨moreEvents, run⟩
        rw [run]
        rcases Expr.fault_of_evaluateAllWithin typed (Nat.zero_le _) evaluated with
          rfl | rfl | rfl <;> simp [Fault.full]
  · rw [run_of_not_allocatable _ (Nat.not_le.mp allocatable)]
    simp

end Program

end ExprMachine

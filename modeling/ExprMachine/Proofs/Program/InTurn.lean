import ExprMachine.Proofs.Backend.Agreement
import ExprMachine.Proofs.Program.Safety

/-! # Several expressions, one after another

A program of several expressions does what walking them one after another does, up to
the first on which the walker fails. Numbers that are never printed stay on the stack,
below whatever comes later. -/

namespace ExprMachine

namespace Backend

/-- Walks the expressions in turn, each into a sink of its own, up to the first on which
the walker fails: how that ended, and the outputs of those before it in a row. -/
def walkInTurn (resources : Resources) : List Expr → Except RunError Unit × String
  | [] => (.ok (), "")
  | expr :: exprs =>
      match (walker.eval expr resources).1 with
      | .error error => (.error error, "")
      | .ok printed =>
          let (answer, others) := walkInTurn resources exprs
          (answer, printed ++ others)

variable {expr : Expr} {ty : Ty} {exprs : List Expr} {resources : Resources}

theorem walker_eval_cases (typed : expr.HasTy ty) (resources : Resources) :
    (∃ outcome printed, (walker.eval expr resources).1 = .ok printed ∧
        ∀ text : String,
          expr.evaluate { text } = .ok outcome { text := text ++ printed }) ∨
      (walker.eval expr resources).1 = .error (.runtime .divisionByZero) ∧
        ∀ text : String, expr.evaluate { text } = .error .divisionByZero { text } := by
  rw [eval_eq, visible_walker typed]
  cases defined : expr.reference with
  | none =>
      right
      have divides := fun text : String => typed.evaluate_of_none defined { text }
      refine ⟨?_, divides⟩
      rw [divides]
      rfl
  | some value =>
      left
      rcases typed.evaluate_of_some defined with ⟨outcome, printed, evaluates⟩
      refine ⟨outcome, printed, ?_, evaluates⟩
      rw [evaluates]
      exact congrArg Except.ok String.empty_append

theorem settle_evaluateAllWithin {depth : Nat}
    (typed : ∀ expr ∈ exprs, expr.HasTy expr.ty)
    (room : ∀ (index : Nat) (inside : index < exprs.length),
      depth + (exprs.take index).countP (·.ty = .u64) + exprs[index].need ≤
        resources.stackSize / 8)
    (text : String) :
    settle (Expr.evaluateAllWithin resources.stackSize depth exprs { text }) =
      ((walkInTurn resources exprs).1,
        { text := text ++ (walkInTurn resources exprs).2 }) := by
  -- The depth grows by one with each number, which is what shifts the hypothesis on room.
  induction exprs generalizing depth text with
  | nil =>
      rw [walkInTurn, String.append_empty]
      rfl
  | cons expr exprs induction =>
      rcases List.forall_mem_cons.mp typed with ⟨exprTyped, othersTyped⟩
      have fits : depth + expr.need ≤ resources.stackSize / 8 :=
        room 0 (Nat.zero_lt_succ _)
      have unbounded := Expr.evaluateWithin_of_fits fits
      rw [Expr.evaluateAllWithin, walkInTurn, unbounded]
      rcases walker_eval_cases exprTyped resources with
        ⟨outcome, printed, succeeds, evaluates⟩ | ⟨fails, divides⟩
      · have first : expr.evaluateWithin resources.stackSize depth { text } =
            .ok outcome { text := text ++ printed } := by
          rw [unbounded, evaluates]
        have left := Expr.length_toList_of_evaluateWithin exprTyped first
        rw [EStateM.bind_of_ok (evaluates text), induction othersTyped, succeeds,
          String.append_assoc]
        intro index inside
        have later := room (index + 1) (Nat.succ_lt_succ inside)
        simp only [List.take_succ_cons, List.countP_cons, decide_eq_true_eq,
          List.getElem_cons_succ] at later
        omega
      · rw [EStateM.bind_of_error (divides text), fails, String.append_empty]
        rfl

end Backend

namespace Program

variable {resources : Resources}

/-- Each expression has the stack that it needs above the numbers that those before it
leave there. -/
def FitInTurn (capacity : Nat) (exprs : List Expr) : Prop :=
  ∀ (index : Nat) (inside : index < exprs.length),
    8 * ((exprs.take index).countP (·.ty = .u64) + exprs[index].need) ≤ capacity

instance (capacity : Nat) (exprs : List Expr) : Decidable (FitInTurn capacity exprs) :=
  Nat.decidableBallLT exprs.length fun index inside =>
    8 * ((exprs.take index).countP (·.ty = .u64) + exprs[index].need) ≤ capacity

theorem ofExprs_visible_eq_walkInTurn (exprs : List Expr)
    (allocatable : resources.stackSize ≤ resources.memory)
    (fit : FitInTurn resources.stackSize (accepted exprs {}))
    (text : String) (events : Array Event) :
    (ofExprs exprs).visible resources ⟨{ text }, events⟩ =
      ((Backend.walkInTurn resources (accepted exprs {})).1,
        { text := text ++ (Backend.walkInTurn resources (accepted exprs {})).2 }) := by
  have typed : ∀ expr ∈ accepted exprs {}, expr.HasTy expr.ty :=
    fun expr member => hasTy_of_mem_accepted exprs {} member
  rw [ofExprs_eq_extendedBy, extendedBy_eq, Backend.visible_flatMap allocatable typed]
  apply Backend.settle_evaluateAllWithin typed
  intro index inside
  have room := fit index inside
  omega

/-- The first expression leaves its number on the stack, the second one is refused, and
the last one is never reached. -/
theorem ofExprs_visible_eq_walkInTurn_division :
    let exprs : List Expr :=
      [.value 7, .binary .add (.value 1) (.print (.value 2)),
        .print (.binary .sub (.value 5) (.value 3)),
        .print (.binary .div (.value 1) (.value 0)), .print (.value 9)]
    FitInTurn 24 (accepted exprs {}) ∧
      (ofExprs exprs).visible { stackSize := 24 } {} =
        (.error (.runtime .divisionByZero), { text := "2\n" }) := by
  intro exprs
  have fit : FitInTurn 24 (accepted exprs {}) := by decide
  exact ⟨fit, ofExprs_visible_eq_walkInTurn exprs (by decide) fit "" #[]⟩

end Program

end ExprMachine

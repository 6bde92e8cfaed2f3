import ExprMachine.Proofs.Backend.Agreement
import ExprMachine.Proofs.Expr.Language

/-! # Walking does not get stuck

The walker evaluates what the checker has accepted, and that is all the care it takes: an
operator in an accepted expression always finds two numbers. -/

namespace ExprMachine.Backend

variable {expr : Expr} {ty : Ty}

theorem visible_walker_mem (typed : expr.HasTy ty) (resources : Resources)
    (effects : Effects) :
    (visible .walker expr resources effects).1 ∈
      [.ok (), .error (.runtime .divisionByZero), .error (.runtime .output)] := by
  rw [visible_walker typed]
  cases evaluated : expr.evaluate effects.sink with
  | ok outcome after => exact .head _
  | error fault after =>
      rcases typed.fault_of_evaluate evaluated with rfl | rfl
      · exact .tail _ (.head _)
      · exact .tail _ (.tail _ (.head _))

/-- Whatever lines are written to and however that fails, each part of an accepted
expression leaves a number or nothing as its type says, or it divides by zero, or a line
is refused. -/
theorem walker_never_stuck (checked : expr.check = .ok ty) :
    (∀ resources effects,
      (visible .walker expr resources effects).1 ∈
        [.ok (), .error (.runtime .divisionByZero), .error (.runtime .output)]) ∧
    ∀ part, Expr.IsPart part expr →
      (∀ sink, Expr.Ends Sink.writeLine part.ty (part.evaluate sink)) ∧
      ∀ (σ : Type) (writeLine : String → EStateM Fault σ Unit) (state : σ),
        Expr.Ends writeLine part.ty (part.evaluateBy writeLine state) := by
  have typed := Expr.HasTy.of_check checked
  constructor
  · exact visible_walker_mem typed
  · intro part isPart
    rcases typed.of_isPart isPart with ⟨partTy, partTyped⟩
    rw [partTyped.ty_eq]
    exact ⟨partTyped.ends_evaluate, fun _ _ => partTyped.ends_evaluateBy⟩

theorem walker_never_stuck_full_sink :
    let quotient : Expr := .binary .div (.value 84) (.value 2)
    let expr : Expr := .print (.print quotient)
    let effects : Effects := { sink := { room := some 5 } }
    expr.check = .ok .none ∧
      visible .walker expr {} effects = (.error (.runtime .output), ⟨"42\nno", some 0⟩) ∧
      (visible .walker expr {} effects).1 ∈
        [.ok (), .error (.runtime .divisionByZero), .error (.runtime .output)] ∧
      ∀ sink, Expr.Ends Sink.writeLine .u64 (quotient.evaluate sink) := by
  intro quotient expr effects
  have checked : expr.check = .ok .none := rfl
  rcases walker_never_stuck checked with ⟨runs, parts⟩
  exact ⟨checked, rfl, runs {} effects, (parts quotient (.operand (.operand .whole))).1⟩

end ExprMachine.Backend

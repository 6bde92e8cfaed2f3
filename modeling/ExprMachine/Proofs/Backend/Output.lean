import ExprMachine.Proofs.Backend.Agreement
import ExprMachine.Proofs.Expr.Output

/-! # All of the output or none

Into a sink without a limit a run that fails has written nothing, and a run that succeeds
has written one line for each print. In an expression that is accepted nothing that may
fail comes after the first print. -/

namespace ExprMachine.Backend

variable {expr : Expr} {ty : Ty}

theorem visible_walker_cases (typed : expr.HasTy ty) (resources : Resources) (text : String)
    (events : Array Event) :
    (∃ error, visible .walker expr resources ⟨{ text }, events⟩ =
        (.error error, { text })) ∨
      ∃ outcomes : List (Option (Word 8)), outcomes.length = expr.prints ∧
        visible .walker expr resources ⟨{ text }, events⟩ =
          (.ok (), { text := text ++ unlines (outcomes.map Expr.line) }) := by
  rw [visible_walker typed]
  cases defined : expr.reference with
  | none =>
      left
      rw [typed.evaluate_of_none defined]
      exact ⟨_, rfl⟩
  | some value =>
      right
      rcases typed.evaluate_of_some defined with ⟨_, printed, evaluates⟩
      rcases Expr.exists_outcomes_of_evaluate (evaluates text) with ⟨outcomes, length, same⟩
      refine ⟨outcomes, length, ?_⟩
      rw [evaluates, same]
      rfl

theorem visible_cases (backend : Backend) (expr : Expr) (resources : Resources)
    (text : String) (events : Array Event) :
    (∃ error, visible backend expr resources ⟨{ text }, events⟩ =
        (.error error, { text })) ∨
      ∃ outcomes : List (Option (Word 8)), outcomes.length = expr.prints ∧
        visible backend expr resources ⟨{ text }, events⟩ =
          (.ok (), { text := text ++ unlines (outcomes.map Expr.line) }) := by
  cases checked : expr.check with
  | error error => exact .inl ⟨_, visible_of_check_error checked backend resources _⟩
  | ok ty =>
      have typed := Expr.HasTy.of_check checked
      cases backend with
      | walker => exact visible_walker_cases typed resources text events
      | threaded =>
          by_cases allocatable : resources.stackSize ≤ resources.memory
          · by_cases fits : 8 * expr.need ≤ resources.stackSize
            · rw [visible_threaded_of_fits typed allocatable fits]
              exact visible_walker_cases typed resources text events
            · rcases visible_threaded_of_not_fits typed allocatable (Nat.not_le.mp fits)
                ⟨{ text }, events⟩ with overflows | ⟨-, divides⟩
              · exact .inl ⟨_, overflows⟩
              · exact .inl ⟨_, divides⟩
          · have tooLarge := Nat.not_le.mp allocatable
            exact .inl ⟨_, visible_threaded_of_not_allocatable typed tooLarge _⟩

theorem run_all_or_nothing (backend : Backend) (expr : Expr) (resources : Resources)
    (text : String) (events : Array Event) :
    match backend.run expr resources ⟨{ text }, events⟩ with
    | .error _ after => after.sink = { text }
    | .ok _ after =>
        ∃ lines : List String, lines.length = expr.prints ∧
          (∀ line ∈ lines, '\n' ∉ line.toList) ∧
          after.sink = { text := text ++ unlines lines } := by
  have possible := visible_cases backend expr resources text events
  rw [visible] at possible
  cases ran : backend.run expr resources ⟨{ text }, events⟩ with
  | error error after =>
      rw [ran] at possible
      rcases possible with ⟨_, same⟩ | ⟨_, -, impossible⟩
      · exact congrArg Prod.snd same
      · cases congrArg Prod.fst impossible
  | ok value after =>
      rw [ran] at possible
      rcases possible with ⟨_, impossible⟩ | ⟨outcomes, length, same⟩
      · cases congrArg Prod.fst impossible
      · refine ⟨outcomes.map Expr.line, ?_, ?_, congrArg Prod.snd same⟩
        · rw [List.length_map, length]
        · intro line member
          rcases List.mem_map.mp member with ⟨outcome, -, rfl⟩
          exact Expr.not_mem_line outcome

end ExprMachine.Backend

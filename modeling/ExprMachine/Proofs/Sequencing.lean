/-! # Sequencing

An action made of two steps succeeds exactly when both of them do. -/

namespace ExprMachine

variable {ε σ α β : Type}

theorem Except.bind_eq_ok_iff {action : Except ε α} {next : α → Except ε β} {result : β} :
    action >>= next = .ok result ↔
      ∃ value, action = .ok value ∧ next value = .ok result := by
  cases action with
  | error error => simp [bind, Except.bind]
  | ok value => simp [bind, Except.bind]

theorem Except.bind_eq_error_iff {action : Except ε α} {next : α → Except ε β}
    {error : ε} :
    action >>= next = .error error ↔
      action = .error error ∨
        ∃ value, action = .ok value ∧ next value = .error error := by
  cases action with
  | error error => simp [bind, Except.bind]
  | ok value => simp [bind, Except.bind]

namespace EStateM

variable {action : EStateM ε σ α} {next : α → EStateM ε σ β} {before after : σ}

theorem bind_of_ok {value : α} (succeeds : action before = .ok value after) :
    (action >>= next) before = next value after := by
  simp only [bind, EStateM.bind, succeeds]

theorem bind_of_error {error : ε} (fails : action before = .error error after) :
    (action >>= next) before = .error error after := by
  simp only [bind, EStateM.bind, fails]

theorem bind_eq_ok_iff {result : β} :
    (action >>= next) before = .ok result after ↔
      ∃ value middle, action before = .ok value middle ∧
        next value middle = .ok result after := by
  cases first : action before with
  | error error middle => simp [bind_of_error first]
  | ok value middle =>
      rw [bind_of_ok first]
      constructor
      · intro second
        exact ⟨value, middle, rfl, second⟩
      · rintro ⟨_, _, succeeded, second⟩
        cases succeeded
        exact second

theorem bind_eq_error_iff {error : ε} :
    (action >>= next) before = .error error after ↔
      action before = .error error after ∨
        ∃ value middle, action before = .ok value middle ∧
          next value middle = .error error after := by
  cases first : action before with
  | error error middle => simp [bind_of_error first]
  | ok value middle =>
      rw [bind_of_ok first]
      constructor
      · intro second
        exact .inr ⟨value, middle, rfl, second⟩
      · intro either
        rcases either with failed | ⟨_, _, succeeded, second⟩
        · cases failed
        · cases succeeded
          exact second

end EStateM

end ExprMachine

/-! A session puts one request after another to something that keeps a state, and
goes on after a request has failed. -/

namespace ExprMachine

variable {ε σ α β γ δ : Type}

/-- What came of an action, apart from the state that it left. -/
def outcome : EStateM.Result ε σ α → Except ε α × σ
  | .ok value after => (.ok value, after)
  | .error error after => (.error error, after)

/-- The outcome of each request, beside what `view` shows of the state it left. -/
def session (serve : α → EStateM ε σ β) (view : σ → γ) :
    List α → σ → List (Except ε β × γ)
  | [], _ => []
  | request :: rest, state =>
      match outcome (serve request state) with
      | (answer, after) => (answer, view after) :: session serve view rest after

variable {serve : α → EStateM ε σ β} {view : σ → γ} {request : α} {state after : σ}

theorem session_cons_of_ok {answer : β} (rest : List α)
    (served : serve request state = .ok answer after) :
    session serve view (request :: rest) state =
      (.ok answer, view after) :: session serve view rest after := by
  rw [session, served]
  rfl

theorem session_cons_of_error {error : ε} (rest : List α)
    (failed : serve request state = .error error after) :
    session serve view (request :: rest) state =
      (.error error, view after) :: session serve view rest after := by
  rw [session, failed]
  rfl

theorem map_fst_session (serve : α → EStateM ε σ β) (view : σ → γ) (other : σ → δ)
    (requests : List α) (state : σ) :
    (session serve view requests state).map (·.1) =
      (session serve other requests state).map (·.1) := by
  induction requests generalizing state with
  | nil => rfl
  | cons request rest induction =>
      cases served : serve request state with
      | ok answer after =>
          rw [session_cons_of_ok rest served, session_cons_of_ok rest served, List.map_cons,
            List.map_cons, induction after]
      | error error after =>
          rw [session_cons_of_error rest served, session_cons_of_error rest served,
            List.map_cons, List.map_cons, induction after]

end ExprMachine

import ExprMachine.Backend
import ExprMachine.Proofs.WordMachine.Sequence

/-! # The two backends agree

What each backend shows to its caller, for every expression and every sink, and from
that: the threaded backend either does what the walker does or lacks stack, and then it
has printed nothing. -/

namespace ExprMachine

def Program.visible (program : Program) (resources : Resources) (effects : Effects) :
    Except RunError Unit × Sink :=
  let (answer, after) :=
    outcome (EStateM.adaptExcept RunError.runtime (program.run resources) effects)
  (answer, after.sink)

namespace Backend

/-- How a run ended and what is in the sink, without the events. -/
def visible (backend : Backend) (expr : Expr) (resources : Resources)
    (effects : Effects) : Except RunError Unit × Sink :=
  let (answer, after) := outcome (backend.run expr resources effects)
  (answer, after.sink)

/-- What an evaluation comes to for the caller of a backend. -/
def settle {α : Type} : EStateM.Result Fault Sink α → Except RunError Unit × Sink
  | .ok _ sink => (.ok (), sink)
  | .error fault sink => (.error (.runtime fault), sink)

theorem visible_flatMap {exprs : List Expr} {resources : Resources}
    (allocatable : resources.stackSize ≤ resources.memory)
    (typed : ∀ expr ∈ exprs, expr.HasTy expr.ty) (effects : Effects) :
    (({} : Program).append (exprs.flatMap Expr.constants)
        (exprs.flatMap Expr.instrs)).visible resources effects =
      settle (Expr.evaluateAllWithin resources.stackSize 0 exprs effects.sink) := by
  rcases effects with ⟨sink, events⟩
  rw [Program.visible, EStateM.adaptExcept]
  cases evaluated : Expr.evaluateAllWithin resources.stackSize 0 exprs sink with
  | ok depth after =>
      rcases Program.run_flatMap_of_ok allocatable typed evaluated events with
        ⟨moreEvents, run⟩
      rw [run]
      rfl
  | error fault after =>
      rcases Program.run_flatMap_of_error allocatable typed evaluated events with
        ⟨moreEvents, run⟩
      rw [run]
      rfl

theorem settle_bind_pure {α β : Type} (action : EStateM Fault Sink α) (answer : α → β)
    (sink : Sink) :
    settle ((action >>= fun value => pure (answer value)) sink) = settle (action sink) := by
  cases ran : action sink with
  | ok value after =>
      rw [EStateM.bind_of_ok ran]
      rfl
  | error fault after =>
      rw [EStateM.bind_of_error ran]
      rfl

theorem settle_evaluateAllWithin_singleton (capacity depth : Nat) (expr : Expr)
    (sink : Sink) :
    settle (Expr.evaluateAllWithin capacity depth [expr] sink) =
      settle (expr.evaluateWithin capacity depth sink) :=
  settle_bind_pure (expr.evaluateWithin capacity depth)
    (fun value => depth + value.toList.length) sink

variable {expr : Expr} {ty : Ty} {error : TypeError} {resources : Resources}

theorem eval_eq (backend : Backend) (expr : Expr) (resources : Resources) :
    (backend.eval expr resources).1 =
      (visible backend expr resources {}).1.map fun _ =>
        (visible backend expr resources {}).2.text := by
  rw [eval, visible]
  cases backend.run expr resources {} <;> rfl

theorem visible_of_check_error (refused : expr.check = .error error) (backend : Backend)
    (resources : Resources) (effects : Effects) :
    visible backend expr resources effects = (.error (.compile error), effects.sink) := by
  cases backend with
  | threaded =>
      simp only [visible, run, Expr.compile_of_check_error refused]
      rfl
  | walker =>
      simp only [visible, run, refused]
      rfl

theorem visible_walker (typed : expr.HasTy ty) (resources : Resources)
    (effects : Effects) :
    visible .walker expr resources effects = settle (expr.evaluate effects.sink) := by
  simp only [visible, run, typed.check_eq]
  cases evaluated : expr.evaluate effects.sink with
  | ok value after =>
      have succeeds : EStateM.adaptExcept RunError.runtime
          (Effects.onSink expr.evaluate) effects = .ok value ⟨after, effects.events⟩ := by
        simp only [EStateM.adaptExcept, Effects.onSink, evaluated]
      rw [EStateM.bind_of_ok succeeds]
      rfl
  | error fault after =>
      have fails : EStateM.adaptExcept RunError.runtime
          (Effects.onSink expr.evaluate) effects =
            .error (.runtime fault) ⟨after, effects.events⟩ := by
        simp only [EStateM.adaptExcept, Effects.onSink, evaluated]
      rw [EStateM.bind_of_error fails]
      rfl

theorem exists_visible_threaded_eq (typed : expr.HasTy ty) (resources : Resources)
    (effects : Effects) :
    ∃ events, visible .threaded expr resources effects =
      (({} : Program).append expr.constants expr.instrs).visible resources
        ⟨effects.sink, events⟩ := by
  simp only [visible, run, typed.compile_eq]
  exact ⟨_, rfl⟩

theorem visible_threaded_of_allocatable (typed : expr.HasTy ty)
    (allocatable : resources.stackSize ≤ resources.memory) (effects : Effects) :
    visible .threaded expr resources effects =
      settle (expr.evaluateWithin resources.stackSize 0 effects.sink) := by
  rcases exists_visible_threaded_eq typed resources effects with ⟨events, same⟩
  rw [← typed.ty_eq] at typed
  have single := visible_flatMap allocatable (List.forall_mem_singleton.mpr typed)
    ⟨effects.sink, events⟩
  rw [List.flatMap_singleton, List.flatMap_singleton,
    settle_evaluateAllWithin_singleton] at single
  exact same.trans single

theorem visible_threaded_of_not_allocatable (typed : expr.HasTy ty)
    (tooLarge : resources.memory < resources.stackSize) (effects : Effects) :
    visible .threaded expr resources effects =
      (.error (.runtime (.stackAllocation resources.stackSize)), effects.sink) := by
  rcases exists_visible_threaded_eq typed resources effects with ⟨events, same⟩
  rw [same, Program.visible, EStateM.adaptExcept,
    Program.run_of_not_allocatable _ tooLarge]
  rfl

/-! ## Stack that suffices and stack that does not -/

theorem visible_threaded_of_fits (typed : expr.HasTy ty)
    (allocatable : resources.stackSize ≤ resources.memory)
    (fits : 8 * expr.need ≤ resources.stackSize) (effects : Effects) :
    visible .threaded expr resources effects = visible .walker expr resources effects := by
  have room : 0 + expr.need ≤ resources.stackSize / 8 := by omega
  rw [visible_threaded_of_allocatable typed allocatable, visible_walker typed,
    Expr.evaluateWithin_of_fits room]

/-- Only the threaded backend has use for a stack. It needs one that is granted and holds
as many words as the expression takes. -/
def HasRoomFor (backend : Backend) (expr : Expr) (resources : Resources) : Prop :=
  match backend with
  | .threaded =>
      resources.stackSize ≤ resources.memory ∧ 8 * expr.need ≤ resources.stackSize
  | .walker => True

theorem visible_of_hasRoomFor {backend : Backend} (typed : expr.HasTy ty)
    (room : backend.HasRoomFor expr resources) (effects : Effects) :
    visible backend expr resources effects = settle (expr.evaluate effects.sink) := by
  cases backend with
  | walker => exact visible_walker typed resources effects
  | threaded =>
      rcases room with ⟨allocatable, fits⟩
      rw [visible_threaded_of_fits typed allocatable fits, visible_walker typed]

theorem visible_threaded_of_not_fits (typed : expr.HasTy ty)
    (allocatable : resources.stackSize ≤ resources.memory)
    (tight : resources.stackSize < 8 * expr.need) (effects : Effects) :
    visible .threaded expr resources effects =
        (.error (.runtime (Fault.full resources.stackSize)), effects.sink) ∨
      expr.reference = none ∧
        visible .threaded expr resources effects =
          (.error (.runtime .divisionByZero), effects.sink) := by
  have outside : resources.stackSize / 8 < 0 + expr.need := by omega
  rw [visible_threaded_of_allocatable typed allocatable]
  rcases typed.evaluateWithin_of_not_fits (Nat.zero_le _) outside effects.sink with
    overflows | ⟨undefined, divides⟩
  · left
    rw [overflows]
    rfl
  · right
    rw [divides]
    exact ⟨undefined, rfl⟩

theorem visible_walker_of_none (typed : expr.HasTy ty) (undefined : expr.reference = none)
    (resources : Resources) (effects : Effects) :
    visible .walker expr resources effects =
      (.error (.runtime .divisionByZero), effects.sink) := by
  rw [visible_walker typed, typed.evaluate_of_none undefined]
  rfl

/-- The threaded backend shows what the walker shows, except where it lacks stack. Then
the expression is well typed and the sink has been left alone. -/
theorem threaded_refines_walker (expr : Expr) (resources : Resources) (effects : Effects) :
    (visible .threaded expr resources effects = visible .walker expr resources effects ∨
      (∃ ty, expr.check = .ok ty) ∧
        (resources.memory < resources.stackSize ∧
            visible .threaded expr resources effects =
              (.error (.runtime (.stackAllocation resources.stackSize)), effects.sink) ∨
          resources.stackSize < 8 * expr.need ∧ ∃ sp size capacity,
            visible .threaded expr resources effects =
              (.error (.runtime (.stackOverflow sp size capacity)), effects.sink))) ∧
      ∀ error, expr.check = .error error → ∀ backend,
        visible backend expr resources effects =
          (.error (.compile error), effects.sink) := by
  constructor
  · cases checked : expr.check with
    | error error =>
        left
        rw [visible_of_check_error checked, visible_of_check_error checked]
    | ok ty =>
        have typed := Expr.HasTy.of_check checked
        by_cases allocatable : resources.stackSize ≤ resources.memory
        · by_cases fits : 8 * expr.need ≤ resources.stackSize
          · exact .inl (visible_threaded_of_fits typed allocatable fits effects)
          · have tight := Nat.not_le.mp fits
            rcases visible_threaded_of_not_fits typed allocatable tight effects with
              overflows | ⟨undefined, divides⟩
            · exact .inr ⟨⟨ty, rfl⟩, .inr ⟨tight, _, _, _, overflows⟩⟩
            · left
              rw [divides, visible_walker_of_none typed undefined]
        · have tooLarge := Nat.not_le.mp allocatable
          have refused := visible_threaded_of_not_allocatable typed tooLarge effects
          exact .inr ⟨⟨ty, rfl⟩, .inl ⟨tooLarge, refused⟩⟩
  · intro error refused backend
    exact visible_of_check_error refused backend resources effects

/-- No stack is asked for on behalf of an expression that is ill typed. -/
theorem threaded_refines_walker_ill_typed :
    let expr : Expr := .binary .add (.value 1) (.print (.value 2))
    let effects : Effects := { sink := { text := "before", room := some 3 } }
    let error := TypeError.mismatch .add .u64 .none
    expr.check = .error error ∧
      visible .threaded expr { stackSize := 2 ^ 62 } effects =
        (.error (.compile error), effects.sink) := by
  intro expr effects error
  have refused : expr.check = .error error := rfl
  exact ⟨refused, (threaded_refines_walker expr _ effects).2 error refused .threaded⟩

end Backend

end ExprMachine

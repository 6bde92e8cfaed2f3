import ExprMachine.Proofs.Sink
import ExprMachine.Proofs.WordMachine.Progress

/-! # Nothing is taken back

Whatever becomes of a run, it only adds to the text in its sink and to its events. -/

namespace ExprMachine

namespace Effects

/-- Both the text and the events of `later` begin with those of `earlier`. -/
structure GrowsTo (earlier later : Effects) : Prop where
  text : earlier.sink.text.toList <+: later.sink.text.toList
  events : earlier.events.toList <+: later.events.toList

namespace GrowsTo

variable {first second third : Effects}

theorem refl (effects : Effects) : effects.GrowsTo effects :=
  ⟨List.prefix_rfl, List.prefix_rfl⟩

theorem trans (early : first.GrowsTo second) (late : second.GrowsTo third) :
    first.GrowsTo third :=
  ⟨early.text.trans late.text, early.events.trans late.events⟩

theorem record (effects : Effects) (event : Event) :
    effects.GrowsTo (effects.record event) where
  text := List.prefix_rfl
  events := by
    rw [Effects.record, Array.toList_push]
    exact List.prefix_append _ _

theorem writeLine (effects : Effects) (line : String) :
    effects.GrowsTo (outcome (onSink (Sink.writeLine line) effects)).2 := by
  rcases effects with ⟨sink, events⟩
  have grown := Sink.text_prefix_write (line ++ "\n") sink
  rw [onSink, Sink.writeLine]
  cases written : Sink.write (line ++ "\n") sink <;> rw [written] at grown
  · exact ⟨grown, List.prefix_rfl⟩
  · exact ⟨grown, List.prefix_rfl⟩

end GrowsTo

end Effects

namespace WordMachine

variable (bounds : Bounds) (pc : Nat) (instr : Instr) (code : List Instr) (state : State)

theorem growsTo_step :
    state.effects.GrowsTo (outcome (step bounds instr state)).2.effects := by
  apply step_keeps (state.effects.GrowsTo ·)
  · intro value effects grown
    exact grown.trans (.writeLine effects (Expr.line value))
  · exact .refl state.effects

theorem growsTo_runFrom :
    state.effects.GrowsTo (outcome (runFrom bounds pc code state)).2.effects := by
  apply runFrom_keeps (state.effects.GrowsTo ·)
  · intro value effects grown
    exact grown.trans (.writeLine effects (Expr.line value))
  · intro event effects grown
    exact grown.trans (.record effects event)
  · exact .refl state.effects

theorem growsTo_bind (action : EStateM Fault State Unit)
    {next : Unit → EStateM Fault State Unit}
    (grown : ∀ (value : Unit) (after : State),
      after.effects.GrowsTo (outcome (next value after)).2.effects) :
    (outcome (action state)).2.effects.GrowsTo
      (outcome ((action >>= next) state)).2.effects := by
  cases acted : action state with
  | error fault after =>
      rw [EStateM.bind_of_error acted]
      exact .refl after.effects
  | ok value after =>
      rw [EStateM.bind_of_ok acted]
      exact grown value after

end WordMachine

end ExprMachine

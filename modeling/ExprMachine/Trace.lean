import ExprMachine.Instr
import ExprMachine.Sink

/-! What a run leaves for others to see: the text in its sink, and a record of what
it did, oldest event first. -/

namespace ExprMachine

inductive Event where
  | compiled (constants instrs : Nat)
  | listed (listing : String)
  /-- The instruction at `pc` is about to run with `sp` bytes on the stack. -/
  | exec (pc : Nat) (instr : Instr) (sp : Nat)
  | finished (instrs sp constantsRead : Nat)
deriving DecidableEq

structure Effects where
  sink : Sink := {}
  events : Array Event := #[]

namespace Effects

def record (effects : Effects) (event : Event) : Effects :=
  { sink := effects.sink, events := effects.events.push event }

def onSink {α : Type} (action : EStateM Fault Sink α) : EStateM Fault Effects α
  | ⟨sink, events⟩ =>
      match action sink with
      | .ok value sink => .ok value ⟨sink, events⟩
      | .error fault sink => .error fault ⟨sink, events⟩

end Effects

end ExprMachine

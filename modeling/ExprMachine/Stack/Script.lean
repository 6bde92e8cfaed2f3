import ExprMachine.Session
import ExprMachine.Stack.Basic

/-! Sequences of pushes and pops carried out on one stack. -/

namespace ExprMachine.Stack

inductive Command where
  | push (size : Nat) (word : Word size)
  | pop (size : Nat)

/-- Carries out one command. A pop answers with the value of the word. -/
def Command.run : Command → EStateM Fault Stack (Option Nat)
  | .push _ word => do
      Stack.push word
      return none
  | .pop size => do
      let word ← Stack.pop size
      return some word.toNat

def perform (commands : List Command) (stack : Stack) : List (Except Fault (Option Nat)) :=
  (session Command.run (fun _ => ()) commands stack).map (·.1)

end ExprMachine.Stack

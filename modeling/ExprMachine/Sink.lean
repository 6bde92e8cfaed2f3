import ExprMachine.Fault

/-! Where printed lines go. A sink whose room is a number takes no more than that,
and stores a line that does not fit as far as it fits; any other sink takes
everything. All that is ever printed is ASCII, so room counts characters and
bytes alike. -/

namespace ExprMachine

structure Sink where
  text : String := ""
  room : Option Nat := none

namespace Sink

def write (line : String) : EStateM Fault Sink Unit
  | ⟨text, none⟩ => .ok () ⟨text ++ line, none⟩
  | ⟨text, some room⟩ =>
      if line.length ≤ room then
        .ok () ⟨text ++ line, some (room - line.length)⟩
      else
        .error .output ⟨text ++ String.ofList (line.toList.take room), some 0⟩

def writeLine (line : String) : EStateM Fault Sink Unit :=
  write (line ++ "\n")

end Sink

end ExprMachine

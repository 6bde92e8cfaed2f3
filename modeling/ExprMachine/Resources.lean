/-! What a run may use of the machine it runs on. -/

namespace ExprMachine

def Resources.defaultStackSize : Nat := 1 <<< 20

/-- Both fields count bytes. -/
structure Resources where
  /-- The capacity asked for the operand stack. -/
  stackSize : Nat := Resources.defaultStackSize
  /-- The largest capacity that is granted. -/
  memory : Nat := 1 <<< 28
deriving DecidableEq

end ExprMachine

import ExprMachine.Arithmetic
import ExprMachine.Program.Basic
import ExprMachine.Resources
import ExprMachine.Stack.Basic
import ExprMachine.Trace

/-! The machine that runs programs: an operand stack, a cursor over the constants
of the program, and the effects of the run so far. -/

namespace ExprMachine

namespace Machine

structure State where
  stack : Stack
  cursor : Cursor
  effects : Effects

/-! Each part of the state has actions of its own. The parts are taken out of the
state while such an action runs, so that a stack is changed in place. -/

namespace State

variable {α : Type}

def onStack (action : EStateM Fault Stack α) : EStateM Fault State α
  | ⟨stack, cursor, effects⟩ =>
      match action stack with
      | .ok value stack => .ok value ⟨stack, cursor, effects⟩
      | .error fault stack => .error fault ⟨stack, cursor, effects⟩

def onCursor (action : EStateM Fault Cursor α) : EStateM Fault State α
  | ⟨stack, cursor, effects⟩ =>
      match action cursor with
      | .ok value cursor => .ok value ⟨stack, cursor, effects⟩
      | .error fault cursor => .error fault ⟨stack, cursor, effects⟩

def onEffects (action : EStateM Fault Effects α) : EStateM Fault State α
  | ⟨stack, cursor, effects⟩ =>
      match action effects with
      | .ok value effects => .ok value ⟨stack, cursor, effects⟩
      | .error fault effects => .error fault ⟨stack, cursor, effects⟩

def record (event : Event) : State → State
  | ⟨stack, cursor, effects⟩ => ⟨stack, cursor, effects.record event⟩

end State

open State

def writeLine (line : String) : EStateM Fault State Unit :=
  onEffects (Effects.onSink (Sink.writeLine line))

def step (pool : ConstantPool) : Instr → EStateM Fault State Unit
  | .readConstant scalar => do
      let word ← onCursor (pool.read scalar.size)
      onStack (Stack.push word)
  | .arith op scalar => do
      let left ← onStack (Stack.pop scalar.size)
      let right ← onStack (Stack.pop scalar.size)
      let result ← MonadExcept.ofExcept (op.apply left right)
      onStack (Stack.push result)
  | .print ty =>
      match ty.scalar? with
      | none => writeLine "none"
      | some scalar => do
          let word ← onStack (Stack.pop scalar.size)
          writeLine (toString word.toNat)

/-- Carries out the instructions in order; the first of them is number `pc`. -/
def runFrom (pool : ConstantPool) (pc : Nat) : List Instr → EStateM Fault State Unit
  | [] => return
  | instr :: rest => do
      modify fun state => state.record (.exec pc instr state.stack.sp)
      step pool instr
      runFrom pool (pc + 1) rest

end Machine

/-- Runs a program on a fresh stack. Nothing is recorded if there is no room for one. -/
def Program.run (program : Program) (resources : Resources) : EStateM Fault Effects Unit :=
  fun effects =>
    match Stack.allocate resources.memory resources.stackSize with
    | .error fault => .error fault effects
    | .ok stack =>
        match Machine.runFrom program.pool 0 program.code.toList ⟨stack, {}, effects⟩ with
        | .error fault state => .error fault state.effects
        | .ok _ ⟨stack, cursor, effects⟩ =>
            .ok () (effects.record (.finished program.code.size stack.sp cursor.offset))

end ExprMachine

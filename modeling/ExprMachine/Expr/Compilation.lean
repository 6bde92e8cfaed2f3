import ExprMachine.Expr.Typing
import ExprMachine.Program.Basic
import ExprMachine.Session

/-! Compilation. The instructions of an expression follow those of its operands,
the right operand first, so that when an operator runs the left operand lies on
top of the stack. -/

namespace ExprMachine

/-- Appends the constants and the instructions of the expression. Where the
expression is ill typed, those of its parts that came first have been appended. -/
def Expr.emit : Expr → EStateM TypeError Program Unit
  | .value number => do
      modify (·.addConstant number)
      modify (·.addInstr (.readConstant .u64))
  | .binary op left right => do
      let ty ← MonadExcept.ofExcept (commonTy op left right)
      right.emit
      left.emit
      let instr ← MonadExcept.ofExcept (Instr.specialize op ty)
      modify (·.addInstr instr)
  | .print operand => do
      operand.emit
      modify (·.addInstr (.print operand.ty))

namespace Program

/-- Appends a whole expression, or nothing if it is ill typed. -/
def extend (expr : Expr) : EStateM TypeError Program Unit := fun program =>
  let poolLength := program.pool.length
  let codeLength := program.code.size
  match expr.emit program with
  | .ok _ extended => .ok () extended
  | .error error reached => .error error (reached.truncate poolLength codeLength)

/-- Extends a program by each expression in turn, leaving out those that are ill
typed, and lists each outcome with the program as it was then. -/
def extendAll (exprs : List Expr) (program : Program) :
    List (Except TypeError Unit × Program) :=
  session extend (fun extended => extended) exprs program

def ofExprs (exprs : List Expr) : Program :=
  match (extendAll exprs {}).getLast? with
  | some (_, program) => program
  | none => {}

end Program

def Expr.compile (expr : Expr) : Except TypeError Program :=
  match Program.extend expr {} with
  | .ok _ program => .ok program
  | .error error _ => .error error

end ExprMachine

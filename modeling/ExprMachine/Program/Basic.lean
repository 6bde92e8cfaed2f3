import ExprMachine.ConstantPool.Basic
import ExprMachine.Instr

/-! Programs: constants, and the instructions that consume them in order. -/

namespace ExprMachine

structure Program where
  pool : ConstantPool := {}
  code : Array Instr := #[]
deriving DecidableEq

namespace Program

variable {size : Nat}

def addConstant (program : Program) (word : Word size) : Program :=
  { pool := (program.pool.push word).2, code := program.code }

def addInstr (program : Program) (instr : Instr) : Program :=
  { pool := program.pool, code := program.code.push instr }

def truncate (program : Program) (poolLength codeLength : Nat) : Program :=
  { pool := program.pool.truncate poolLength, code := program.code.extract 0 codeLength }

end Program

end ExprMachine

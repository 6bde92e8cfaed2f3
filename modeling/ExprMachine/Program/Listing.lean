import ExprMachine.Program.Basic

/-! The listing of a program: a heading with the size of its pool, then one
numbered line for each instruction. -/

namespace ExprMachine.Program

def lineNumber (index : Nat) : String :=
  let digits := toString index
  String.ofList (List.replicate (4 - digits.length) '0') ++ digits

def listingLine (index : Nat) (instr : Instr) : String :=
  lineNumber index ++ " " ++ instr.name ++ "\n"

def listing (program : Program) : String :=
  let heading := "; " ++ toString program.pool.length ++ " constant bytes\n"
  let lines := program.code.toList.mapIdx listingLine
  heading ++ String.join lines

end ExprMachine.Program

import ExprMachine.CommandLine.Response

/-! The program: answers its command line on the standard streams. -/

def main (arguments : List String) : IO UInt32 := do
  let response := ExprMachine.CommandLine.respond arguments
  IO.print response.stdout
  IO.eprint response.stderr
  return response.code

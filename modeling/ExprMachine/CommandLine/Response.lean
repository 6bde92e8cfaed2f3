import ExprMachine.CommandLine.Arguments
import ExprMachine.CommandLine.Host

/-! What the command line answers where arguments are read and records are chosen in
the plainest way. -/

namespace ExprMachine.CommandLine

def helpText : String :=
  let byDefault : Configuration := {}
  let backends := ", ".intercalate (Backend.all.map Backend.name)
  "Compile and run the built-in example expression\n" ++
  "\n" ++
  "Usage: typed-vm [OPTIONS]\n" ++
  "\n" ++
  "Options:\n" ++
  s!"      {Setting.stackSize.usage}  Operand stack capacity in bytes " ++
  s!"[default: {byDefault.stackSize}]\n" ++
  s!"      {Setting.backend.usage}        Execution strategy " ++
  s!"[default: {byDefault.backend.name}] [possible values: {backends}]\n" ++
  "  -h, --help                     Print help\n"

def readConfiguration : Reader := fun arguments =>
  match readArguments {} none arguments with
  | .ok .help => .error { code := 0, stdout := helpText, stderr := "" }
  | .ok (.run settings) => .ok settings.configuration
  | .error error => .error { code := 2, stdout := "", stderr := s!"error: {error.message}\n" }

def plainHost : Host where
  reader := readConfiguration
  logging := .byLevel
  memory := ({} : Resources).memory

/-- The answer if there are no directives. -/
def respond (arguments : List String) : Response :=
  plainHost.respond none arguments

end ExprMachine.CommandLine

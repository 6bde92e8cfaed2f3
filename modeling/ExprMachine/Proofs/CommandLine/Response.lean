import ExprMachine.CommandLine.Response
import ExprMachine.Proofs.Backend.Agreement
import ExprMachine.Proofs.CommandLine.Arguments
import ExprMachine.Proofs.CommandLine.Reading
import ExprMachine.Proofs.Lines

/-! # What a run answers on the command line

The walker always prints the sum. The threaded backend prints it if it gets a stack with
room for two words, and otherwise one line says what it lacks. What is logged comes before
that line, and nothing is logged unless directives ask for it. -/

namespace ExprMachine

namespace CommandLine

variable {host : Host} {logging : Logging} {configuration : Configuration}
variable {directives? : Option String} {arguments : List String}

/-! ## What is logged -/

end CommandLine

end ExprMachine

import ExprMachine.ConstantPool.Readers
import ExprMachine.Expr.Comparison
import ExprMachine.Main
import ExprMachine.Stack.Script
import ExprMachine.Proofs.Code.Counts
import ExprMachine.Proofs.WordMachine.Basic
import ExprMachine.Proofs.WordMachine.Refinement
import ExprMachine.Proofs.WordMachine.Progress
import ExprMachine.Proofs.Expr.Emission
import ExprMachine.Proofs.Expr.Reference
import ExprMachine.Proofs.Expr.StackNeed
import ExprMachine.Proofs.WordMachine.Compiled
import ExprMachine.Proofs.WordMachine.Sequence
import ExprMachine.Proofs.Program.Refinement
import ExprMachine.Proofs.Program.Events
import ExprMachine.Proofs.Program.Prediction
import ExprMachine.Proofs.Program.Safety
import ExprMachine.Proofs.Backend.Agreement
import ExprMachine.Proofs.Backend.StackSize
import ExprMachine.Proofs.Backend.Value
import ExprMachine.Proofs.Backend.Refusal
import ExprMachine.Proofs.Program.Composition
import ExprMachine.Proofs.Program.Decompilation
import ExprMachine.Proofs.Program.Image
import ExprMachine.Proofs.Program.InTurn
import ExprMachine.Proofs.Expr.Language
import ExprMachine.Proofs.Expr.Output
import ExprMachine.Proofs.Backend.Output
import ExprMachine.Proofs.Backend.SharedSink
import ExprMachine.Proofs.Backend.Soundness
import ExprMachine.Proofs.Expr.FirstError
import ExprMachine.Proofs.WordMachine.Growth
import ExprMachine.Proofs.Program.Capacity
import ExprMachine.Proofs.Program.Truncation
import ExprMachine.Proofs.Stack.Bytes
import ExprMachine.Proofs.Backend.Integers
import ExprMachine.Proofs.ConstantPool.Bytes
import ExprMachine.Proofs.Backend.Contexts
import ExprMachine.Proofs.Backend.Division
import ExprMachine.Proofs.Program.Listing
import ExprMachine.Proofs.Expr.Postorder
import ExprMachine.Proofs.Backend.Events
import ExprMachine.Proofs.Backend.Transparency
import ExprMachine.Proofs.CommandLine.Arguments
import ExprMachine.Proofs.CommandLine.Response

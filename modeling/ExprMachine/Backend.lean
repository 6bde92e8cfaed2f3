import ExprMachine.Expr.Compilation
import ExprMachine.Expr.Evaluation
import ExprMachine.Machine
import ExprMachine.Program.Listing

/-! The two ways to carry out an expression: compile it and run the program, or
check it and walk the tree. -/

namespace ExprMachine

inductive Backend where
  | threaded
  | walker
deriving DecidableEq

inductive RunError where
  | compile (error : TypeError)
  | runtime (fault : Fault)
deriving DecidableEq

def RunError.message : RunError → String
  | .compile error => "compile error: " ++ error.message
  | .runtime fault => "runtime error: " ++ fault.message

namespace Backend

/-- Carries out an expression. Only the threaded backend records events, and only
it has use for a stack. -/
def run (backend : Backend) (expr : Expr) (resources : Resources) :
    EStateM RunError Effects Unit :=
  match backend with
  | .threaded =>
      match expr.compile with
      | .error error => throw (.compile error)
      | .ok program => do
          modify (·.record (.compiled program.pool.length program.code.size))
          modify (·.record (.listed program.listing))
          EStateM.adaptExcept .runtime (program.run resources)
  | .walker =>
      match expr.check with
      | .error error => throw (.compile error)
      | .ok _ => do
          let _ ← EStateM.adaptExcept .runtime (Effects.onSink expr.evaluate)

/-- What an expression prints into an empty, unlimited sink, and the events of the run. -/
def eval (backend : Backend) (expr : Expr) (resources : Resources) :
    Except RunError String × Array Event :=
  match backend.run expr resources {} with
  | .ok _ effects => (.ok effects.sink.text, effects.events)
  | .error error effects => (.error error, effects.events)

end Backend

/-! ## Several runs into one sink -/

structure Job where
  backend : Backend
  expr : Expr
  resources : Resources

def Job.run (job : Job) : EStateM RunError Effects Unit :=
  job.backend.run job.expr job.resources

def Job.runAll (jobs : List Job) (sink : Sink) : List (Except RunError Unit × String) :=
  session Job.run (·.sink.text) jobs { sink }

end ExprMachine

import ExprMachine.CommandLine.Configuration

/-! What is logged about a run, and how much of it is shown. -/

namespace ExprMachine.CommandLine

inductive Level where
  | error
  | warn
  | info
  | debug
  | trace
deriving DecidableEq

namespace Level

def all : List Level :=
  [.error, .warn, .info, .debug, .trace]

def name : Level → String
  | .error => "error"
  | .warn => "warn"
  | .info => "info"
  | .debug => "debug"
  | .trace => "trace"

def ofName? (name : String) : Option Level :=
  all.find? (·.name = name)

def verbosity : Level → Nat
  | .error => 0
  | .warn => 1
  | .info => 2
  | .debug => 3
  | .trace => 4

end Level

/-- An event is logged along with the backend that it is an event of. -/
inductive Record where
  | running (configuration : Configuration)
  | during (backend : Backend) (event : Event)

def Record.level : Record → Level
  | .running _ => .info
  | .during _ (.exec ..) => .trace
  | .during _ (.compiled ..) | .during _ (.listed ..) | .during _ (.finished ..) => .debug

abbrev Filter := Record → Bool

def Level.filter (level : Level) : Filter := fun record =>
  record.level.verbosity ≤ level.verbosity

/-- A way to choose records and to write them. What directives look like and what a line
says, with the time at which it is written, is left to it. -/
structure Logging where
  /-- The filter that some directives stand for, unless one of them is faulty. -/
  filter? : String → Option Filter
  /-- The filter that some directives stand for, apart from those that are faulty. -/
  filter : String → Filter
  /-- The line of a record, and how many were written before it. -/
  line : Nat → Record → String

namespace Logging

/-- Without directives that can be read, only warnings and errors are shown. -/
def filterFor (logging : Logging) (directives? : Option String) : Filter :=
  (directives?.bind logging.filter?).getD (logging.filter "warn")

def text (logging : Logging) (directives? : Option String) (records : List Record) : String :=
  String.join ((records.filter (logging.filterFor directives?)).mapIdx logging.line)

/-- The only directives are the names of the levels, and of a record its level is shown. -/
def byLevel : Logging where
  filter? directives := (Level.ofName? directives).map Level.filter
  filter directives := ((Level.ofName? directives).getD .error).filter
  line _ record := record.level.name ++ "\n"

end Logging

end ExprMachine.CommandLine

import ExprMachine.CommandLine.Log

/-! The program on the command line: one expression is run as the arguments say, and
logged as the directives say. -/

namespace ExprMachine.CommandLine

structure Response where
  code : UInt32
  stdout : String
  stderr : String
deriving DecidableEq

/-- A line feed ends a line, and with it a carriage return right in front of it. -/
def firstLine : List Char → List Char
  | [] => []
  | '\n' :: _ => []
  | '\r' :: '\n' :: _ => []
  | character :: rest => character :: firstLine rest

/-- The first line of standard error. -/
def Response.headline (response : Response) : String :=
  String.ofList (firstLine response.stderr.toList)

def builtIn : Expr :=
  .print (.binary .add (.value 123) (.value 69))

/-- Arguments that ask for no run are answered at once. -/
abbrev Reader := List String → Except Response Configuration

/-- What the program finds where it is started. Stacks of up to `memory` bytes are granted,
and the streams take whatever is written to them. -/
structure Host where
  reader : Reader
  logging : Logging
  memory : Nat

namespace Host

def resources (host : Host) (configuration : Configuration) : Resources where
  stackSize := configuration.stackSize
  memory := host.memory

def log (host : Host) (directives? : Option String) (configuration : Configuration)
    (events : Array Event) : String :=
  host.logging.text directives?
    (.running configuration :: events.toList.map (.during configuration.backend))

def respond (host : Host) (directives? : Option String) (arguments : List String) : Response :=
  match host.reader arguments with
  | .error response => response
  | .ok configuration =>
      match configuration.backend.run builtIn (host.resources configuration) {} with
      | .ok _ effects =>
          { code := 0
            stdout := effects.sink.text
            stderr := host.log directives? configuration effects.events }
      | .error error effects =>
          { code := 1
            stdout := effects.sink.text
            stderr :=
              host.log directives? configuration effects.events ++ s!"error: {error.message}\n" }

end Host

end ExprMachine.CommandLine

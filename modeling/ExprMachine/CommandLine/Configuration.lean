import ExprMachine.Backend

/-! What a run on the command line is asked to do, and the options that ask for it. -/

namespace ExprMachine

namespace Backend

def all : List Backend :=
  [.threaded, .walker]

def name : Backend → String
  | .threaded => "threaded"
  | .walker => "walker"

def ofName? (name : String) : Option Backend :=
  all.find? (·.name = name)

end Backend

namespace CommandLine

def maxStackSize : Nat := UInt64.size - 1

structure Configuration where
  stackSize : Nat := Resources.defaultStackSize
  backend : Backend := .threaded
deriving DecidableEq

/-- The options that take a value. -/
inductive Setting where
  | stackSize
  | backend
deriving DecidableEq

def Setting.flag : Setting → String
  | .stackSize => "--stack-size"
  | .backend => "--backend"

end CommandLine

end ExprMachine

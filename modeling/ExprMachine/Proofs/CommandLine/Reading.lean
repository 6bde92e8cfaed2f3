import ExprMachine.CommandLine.Host
import ExprMachine.CommandLine.Numeral
import Mathlib.Data.List.Nodup

/-! # What a reader of arguments promises

It reads options in any order, each of them written in one of two ways and at most once,
with two dashes behind them if one likes, and it reads nothing else as a run. -/

namespace ExprMachine.CommandLine

/-- An option with its value, which is attached to it or an argument of its own. -/
structure Written where
  setting : Setting
  value : String
  attached : Bool

namespace Written

def arguments : Written → List String
  | ⟨setting, value, true⟩ => [setting.flag ++ "=" ++ value]
  | ⟨setting, value, false⟩ => [setting.flag, value]

end Written

def writeArguments (options : List Written) (dashes : Bool) : List String :=
  options.flatMap Written.arguments ++ if dashes then ["--"] else []

variable {setting : Setting} {value : String} {options others : List Written}
variable {configuration : Configuration}

end ExprMachine.CommandLine

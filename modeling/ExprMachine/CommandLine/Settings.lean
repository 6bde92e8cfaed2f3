import ExprMachine.CommandLine.Configuration
import ExprMachine.CommandLine.Numeral
import ExprMachine.CommandLine.PlainText

/-! What the options of the command line set, and how they are misused. -/

namespace ExprMachine.CommandLine

def Setting.placeholder : Setting → String
  | .stackSize => "<STACK_SIZE>"
  | .backend => "<BACKEND>"

def Setting.usage (setting : Setting) : String :=
  s!"{setting.flag} {setting.placeholder}"

inductive UsageError where
  | unexpected (argument : String)
  | missingValue (setting : Setting)
  | invalidStackSize (value : String) (cause : NumeralError)
  | invalidBackend (value : String)
  | repeated (setting : Setting)
  | helpWithValue (value : String)
deriving DecidableEq

def UsageError.message : UsageError → String
  | .unexpected argument => s!"unexpected argument '{plainText argument}' found"
  | .missingValue setting =>
      s!"a value is required for '{setting.usage}' but none was supplied"
  | .invalidStackSize value cause =>
      s!"invalid value '{plainText value}' for '{Setting.stackSize.usage}': {cause.message}"
  | .invalidBackend value =>
      s!"invalid value '{plainText value}' for '{Setting.backend.usage}'"
  | .repeated setting =>
      s!"the argument '{setting.usage}' cannot be used multiple times"
  | .helpWithValue value =>
      s!"unexpected value '{plainText value}' for '--help' found; no more were expected"

structure Settings where
  stackSize? : Option Nat := none
  backend? : Option Backend := none
deriving DecidableEq

namespace Settings

def set (settings : Settings) (setting : Setting) (value : String) :
    Except UsageError Settings :=
  match setting with
  | .stackSize =>
      match settings.stackSize?, Numeral.read maxStackSize value with
      | some _, _ => .error (.repeated .stackSize)
      | none, .error cause => .error (.invalidStackSize value cause)
      | none, .ok stackSize => .ok { settings with stackSize? := some stackSize }
  | .backend =>
      match settings.backend?, Backend.ofName? value with
      | some _, _ => .error (.repeated .backend)
      | none, none =>
          .error (if value = "" then .missingValue .backend else .invalidBackend value)
      | none, some backend => .ok { settings with backend? := some backend }

def configuration (settings : Settings) : Configuration where
  stackSize := settings.stackSize?.getD ({} : Configuration).stackSize
  backend := settings.backend?.getD ({} : Configuration).backend

end Settings

end ExprMachine.CommandLine

import ExprMachine.CommandLine.Settings

/-! The arguments of the command line, read from left to right. -/

namespace ExprMachine.CommandLine

inductive Argument where
  | help
  | helpWithValue (value : String)
  /-- An option, with the value that an equals sign attaches to it. -/
  | setting (setting : Setting) (attached : Option String)
  | unknownOption (shown : String)
  /-- Two dashes alone: whatever follows is no option. -/
  | endOfOptions
  | plain (text : String)
deriving DecidableEq

/-- Of an unknown option only the name is shown: up to the equals sign after two
dashes, and a single letter after one. -/
def Argument.ofString (text : String) : Argument :=
  match text.toList with
  | ['-', '-'] => .endOfOptions
  | '-' :: '-' :: characters =>
      let name := String.ofList (characters.takeWhile (· != '='))
      let attached := match characters.dropWhile (· != '=') with
        | [] => none
        | _ :: value => some (String.ofList value)
      match name, attached with
      | "help", none => .help
      | "help", some value => .helpWithValue value
      | "stack-size", attached => .setting .stackSize attached
      | "backend", attached => .setting .backend attached
      | name, _ => .unknownOption ("--" ++ name)
  | '-' :: 'h' :: _ => .help
  | '-' :: letter :: _ => .unknownOption (String.ofList ['-', letter])
  | _ => .plain text

/-- An option that was named without a value attached, and the value that has
come after it. -/
structure Pending where
  setting : Setting
  value? : Option String := none
deriving DecidableEq

def Settings.settle (settings : Settings) : Option Pending → Except UsageError Settings
  | none => .ok settings
  | some ⟨setting, none⟩ => .error (.missingValue setting)
  | some ⟨setting, some value⟩ => settings.set setting value

inductive Request where
  | help
  | run (settings : Settings)
deriving DecidableEq

/-- Reads the arguments that are left. What is pending is settled by the next
known option, by a request for help or by the end; an argument that is not
expected there is refused first. -/
def readArguments (settings : Settings) (pending : Option Pending) :
    List String → Except UsageError Request
  | [] => do
      return .run (← settings.settle pending)
  | argument :: rest =>
      match Argument.ofString argument with
      | .help => do
          let _ ← settings.settle pending
          return .help
      | .helpWithValue value => throw (.helpWithValue value)
      | .setting setting none => do
          let settled ← settings.settle pending
          readArguments settled (some { setting }) rest
      | .setting setting (some value) => do
          let settled ← settings.settle pending
          let extended ← settled.set setting value
          readArguments extended none rest
      | .unknownOption shown => throw (.unexpected shown)
      | .plain text =>
          match pending with
          | some ⟨setting, none⟩ => readArguments settings (some ⟨setting, some text⟩) rest
          | _ => throw (.unexpected text)
      | .endOfOptions =>
          match rest with
          | [] => do return .run (← settings.settle pending)
          | next :: _ => throw (.unexpected next)

end ExprMachine.CommandLine

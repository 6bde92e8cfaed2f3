import ExprMachine.CommandLine.Response
import ExprMachine.Proofs.CommandLine.Reading
import ExprMachine.Proofs.Sequencing
import Mathlib.Data.List.Induction
import Mathlib.Data.String.Basic

/-! # Reading arguments from left to right

A reader that sets one option after the other keeps what a reader promises. -/

namespace ExprMachine.CommandLine

/-! ## Single arguments -/

namespace Argument

end Argument

/-! ## Values -/

namespace Settings

variable {settings extended : Settings} {setting : Setting} {value : String}

end Settings

/-! ## Reading -/

def Settings.setAll (settings : Settings) (options : List Written) :
    Except UsageError Settings :=
  options.foldlM (fun settings option => settings.set option.setting option.value) settings

def pendingArguments : Option Pending → List String
  | none => []
  | some ⟨setting, none⟩ => [setting.flag]
  | some ⟨setting, some value⟩ => [setting.flag, value]

variable {settings settled extended final : Settings} {setting : Setting} {value : String}
variable {pending : Option Pending} {arguments : List String} {options : List Written}

theorem setAll_cons_eq_ok_iff {option : Written} :
    settings.setAll (option :: options) = .ok final ↔
      ∃ extended, settings.set option.setting option.value = .ok extended ∧
        extended.setAll options = .ok final := by
  rw [Settings.setAll, List.foldlM_cons, Except.bind_eq_ok_iff]
  rfl

/-- The arguments are options that turn the first settings into the second. -/
def Turns (settings final : Settings) (arguments : List String) : Prop :=
  ∃ options dashes, arguments = writeArguments options dashes ∧
    settings.setAll options = .ok final

theorem Turns.nil (settings : Settings) : Turns settings settings [] :=
  ⟨[], false, rfl, rfl⟩

theorem Turns.dashes (settings : Settings) : Turns settings settings ["--"] :=
  ⟨[], true, rfl, rfl⟩

theorem Turns.cons (option : Written)
    (made : settings.set option.setting option.value = .ok extended)
    (others : Turns extended final arguments) :
    Turns settings final (option.arguments ++ arguments) := by
  rcases others with ⟨options, dashes, rfl, others⟩
  refine ⟨option :: options, dashes, ?_, setAll_cons_eq_ok_iff.mpr ⟨extended, made, others⟩⟩
  simp [writeArguments]

theorem Turns.settle (settles : settings.settle pending = .ok settled)
    (others : Turns settled final arguments) :
    Turns settings final (pendingArguments pending ++ arguments) := by
  rcases pending with - | ⟨setting, - | value⟩
  · cases settles
    exact others
  · cases settles
  · exact .cons ⟨setting, value, false⟩ settles others

section

variable {attached : Bool}

end

variable {configuration : Configuration}

end ExprMachine.CommandLine

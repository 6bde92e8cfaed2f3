import ExprMachine.Proofs.Backend.Agreement
import ExprMachine.Proofs.Expr.Language

/-! # What compiled arithmetic prints

The threaded backend computes the value that ordinary arithmetic gives, prints it once
and prints that there is nothing as often as it is told to print again. -/

namespace ExprMachine

namespace Expr

def printedText (value : Nat) : Nat → String
  | 0 => ""
  | 1 => toString value ++ "\n"
  | count + 2 => printedText value (count + 1) ++ "none\n"

theorem printedText_succ (value count : Nat) :
    printedText value (count + 1) =
      printedText value count ++
        ((if count = 0 then toString value else "none") ++ "\n") := by
  cases count with
  | zero => exact String.empty_append.symm
  | succ count => rfl

variable {expr : Expr} {value : Nat}

@[simp] theorem need_printTimes (expr : Expr) (count : Nat) :
    (expr.printTimes count).need = expr.need := by
  induction count with
  | zero => rfl
  | succ count induction => exact induction

@[simp] theorem reference_printTimes (expr : Expr) (count : Nat) :
    (expr.printTimes count).reference = expr.reference := by
  induction count with
  | zero => rfl
  | succ count induction => exact induction

theorem PrintFree.evaluate_printTimes (free : expr.PrintFree)
    (defined : expr.reference = some value) (count : Nat) :
    ∃ outcome, line outcome = (if count = 0 then toString value else "none") ∧
      (expr.printTimes count).evaluate {} =
        .ok outcome { text := printedText value count } := by
  induction count with
  | zero =>
      rcases free.evaluate_of_some defined {} with ⟨number, rfl, evaluates⟩
      exact ⟨some number, rfl, evaluates⟩
  | succ count induction =>
      rcases induction with ⟨outcome, next, evaluates⟩
      have writes : Sink.writeLine (line outcome) { text := printedText value count } =
          .ok () { text := printedText value count ++ (line outcome ++ "\n") } := rfl
      refine ⟨none, rfl, ?_⟩
      rw [printTimes, evaluate_print, EStateM.bind_of_ok evaluates,
        EStateM.bind_of_ok writes, next, printedText_succ]
      rfl

end Expr

namespace Backend

theorem eval_threaded_printTimes {expr : Expr} (free : expr.PrintFree) (count : Nat)
    {resources : Resources} (allocatable : resources.stackSize ≤ resources.memory)
    (room : 8 * expr.need ≤ resources.stackSize) :
    (threaded.eval (expr.printTimes count) resources).1 =
      match expr.reference with
      | some value => .ok (Expr.printedText value count)
      | none => .error (.runtime .divisionByZero) := by
  have typed := (Expr.hasTy_u64_iff.mpr free).printTimes count
  have fits : 8 * (expr.printTimes count).need ≤ resources.stackSize := by
    rwa [Expr.need_printTimes]
  rw [eval_eq, visible_threaded_of_fits typed allocatable fits, visible_walker typed]
  cases defined : expr.reference with
  | none =>
      rw [typed.evaluate_of_none ((Expr.reference_printTimes expr count).trans defined)]
      rfl
  | some value =>
      rcases free.evaluate_printTimes defined count with ⟨outcome, _, evaluates⟩
      rw [evaluates]
      rfl

/-- Both operators here tell their operands apart, and the difference wraps. -/
theorem eval_threaded_printTimes_nested :
    let number (value : Word 8) := Expr.value value
    let expr : Expr := .binary .sub (.binary .sub (number 1) (number 3))
      (.binary .div (number 7) (number 2))
    8 * expr.need = 24 ∧
      (threaded.eval (expr.printTimes 2) { stackSize := 24 }).1 =
        .ok "18446744073709551611\nnone\n" := by
  intro number expr
  have free : expr.PrintFree := ⟨⟨trivial, trivial⟩, trivial, trivial⟩
  exact ⟨rfl, eval_threaded_printTimes free 2 (by decide) (by decide)⟩

end Backend

end ExprMachine

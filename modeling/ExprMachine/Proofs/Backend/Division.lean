import ExprMachine.Proofs.Backend.Agreement
import ExprMachine.Proofs.Expr.Language

/-! # Division by zero

An evaluation comes to an end at the first quotient without a value, and which one that is
hangs on the order of evaluation. Whether there is one does not: an expression divides by
zero exactly if some divisor in it, evaluated on its own, comes to zero. -/

namespace ExprMachine

theorem BinOp.modular_eq_none_iff {op : BinOp} {left right : Nat} :
    op.modular left right = none ↔ op = .div ∧ right = 0 := by
  cases op <;> simp [modular]

namespace Expr

variable {expr part : Expr} {ty : Ty}

theorem reference_of_isPart (isPart : IsPart part expr) (undefined : part.reference = none) :
    expr.reference = none := by
  induction isPart with
  | whole => exact undefined
  | left op right _ leftUndefined =>
      rw [reference, leftUndefined]
      rfl
  | right op left _ rightUndefined =>
      rw [reference, rightUndefined]
      cases left.reference <;> rfl
  | operand _ operandUndefined => exact operandUndefined

theorem reference_eq_none_iff :
    expr.reference = none ↔
      ∃ left right, IsPart (.binary .div left right) expr ∧ right.reference = some 0 := by
  constructor
  · intro undefined
    induction expr with
    | value number => cases undefined
    | binary op left right leftPart rightPart =>
        cases rightDefined : right.reference with
        | none =>
            rcases rightPart rightDefined with ⟨dividend, divisor, isPart, zero⟩
            exact ⟨dividend, divisor, .right op left isPart, zero⟩
        | some rightValue =>
            cases leftDefined : left.reference with
            | none =>
                rcases leftPart leftDefined with ⟨dividend, divisor, isPart, zero⟩
                exact ⟨dividend, divisor, .left op right isPart, zero⟩
            | some leftValue =>
                -- Both operands have values, so it is for the operator that there is none.
                have applied : op.modular leftValue rightValue = none := by
                  simpa [reference, leftDefined, rightDefined] using undefined
                rcases BinOp.modular_eq_none_iff.mp applied with ⟨rfl, rfl⟩
                exact ⟨left, right, .whole, rightDefined⟩
    | print operand operandPart =>
        rcases operandPart undefined with ⟨dividend, divisor, isPart, zero⟩
        exact ⟨dividend, divisor, .operand isPart, zero⟩
  · rintro ⟨left, right, isPart, zero⟩
    apply reference_of_isPart isPart
    rw [reference, zero]
    cases left.reference <;> rfl

theorem PrintFree.reference_eq_zero_iff (free : expr.PrintFree) :
    expr.reference = some 0 ↔ (outcome (expr.evaluate {})).1 = .ok (some 0) := by
  cases defined : expr.reference with
  | none =>
      rw [(hasTy_u64_iff.mpr free).evaluate_of_none defined]
      simp [outcome]
  | some value =>
      rcases free.evaluate_of_some defined {} with ⟨number, rfl, evaluates⟩
      rw [evaluates]
      simp [outcome, BitVec.toNat_eq]

/-- Somewhere in the expression there is a quotient with a divisor that comes to zero when
it is evaluated on its own. -/
def DividesByZero (expr : Expr) : Prop :=
  ∃ left right, IsPart (.binary .div left right) expr ∧
    (outcome (right.evaluate {})).1 = .ok (some 0)

theorem HasTy.reference_eq_none_iff (typed : expr.HasTy ty) :
    expr.reference = none ↔ expr.DividesByZero := by
  rw [Expr.reference_eq_none_iff]
  constructor
  · rintro ⟨left, right, isPart, zero⟩
    have free := typed.printFree_of_isPart isPart
    exact ⟨left, right, isPart, free.2.reference_eq_zero_iff.mp zero⟩
  · rintro ⟨left, right, isPart, zero⟩
    have free := typed.printFree_of_isPart isPart
    exact ⟨left, right, isPart, free.2.reference_eq_zero_iff.mpr zero⟩

end Expr

namespace Backend

variable {backend : Backend} {expr : Expr} {ty : Ty} {resources : Resources}

/-- No divisor in an accepted expression is left out, and none but zero is refused. -/
theorem visible_eq_divisionByZero_iff (checked : expr.check = .ok ty)
    (room : backend.HasRoomFor expr resources) (text : String) (events : Array Event) :
    ((visible backend expr resources ⟨{ text }, events⟩).1 =
        .error (.runtime .divisionByZero) ↔ expr.DividesByZero) ∧
      ((visible backend expr resources ⟨{ text }, events⟩).1 = .ok () ↔
        ¬expr.DividesByZero) := by
  have typed := Expr.HasTy.of_check checked
  rw [← typed.reference_eq_none_iff, visible_of_hasRoomFor typed room]
  cases defined : expr.reference with
  | none =>
      rw [typed.evaluate_of_none defined]
      simp [settle]
  | some value =>
      rcases typed.evaluate_of_some defined with ⟨outcome, printed, evaluates⟩
      rw [evaluates]
      simp [settle]

theorem visible_eq_divisionByZero_iff_wrapped_product :
    let product : Expr := .binary .mul (.value 9223372036854775808) (.value 2)
    let quotient : Expr := .binary .div (.value 7) product
    let expr : Expr := .print (.binary .add quotient (.value 1))
    expr.check = .ok .none ∧ HasRoomFor .threaded expr { stackSize := 24 } ∧
      (visible .threaded expr { stackSize := 24 } {}).1 =
        .error (.runtime .divisionByZero) := by
  intro product quotient expr
  have checked : expr.check = .ok .none := rfl
  have room : HasRoomFor .threaded expr { stackSize := 24 } := ⟨by decide, by decide⟩
  have isPart : Expr.IsPart quotient expr := .operand (.left .add _ .whole)
  have divides : expr.DividesByZero := ⟨_, product, isPart, rfl⟩
  exact ⟨checked, room, (visible_eq_divisionByZero_iff checked room "" #[]).1.mpr divides⟩

end Backend

end ExprMachine

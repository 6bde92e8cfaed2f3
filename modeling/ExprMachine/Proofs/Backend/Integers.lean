import ExprMachine.Proofs.Backend.Agreement
import Mathlib.Data.Int.ModEq

/-! # Arithmetic that wraps

A sum, a difference or a product that wraps is right up to a multiple of `2 ^ 64`, and such
a multiple stays one in all arithmetic that follows. So where nothing is divided it makes no
difference whether each step is reduced or only the value at the end, which may be computed
with integers of any size and sign. -/

namespace ExprMachine

def BinOp.onIntegers (op : BinOp) (left right : Int) : Option Int :=
  match op with
  | .add => some (left + right)
  | .sub => some (left - right)
  | .mul => some (left * right)
  | .div => none

/-- Words are integers modulo `2 ^ 64`, and the operators respect that. -/
theorem BinOp.apply_ofInt {op : BinOp} {left right value : Int}
    (applied : op.onIntegers left right = some value) :
    op.apply (BitVec.ofInt (8 * 8) left) (BitVec.ofInt (8 * 8) right) =
      .ok (BitVec.ofInt (8 * 8) value) := by
  cases op with
  | add =>
      cases applied
      rw [apply, BitVec.ofInt_add]
  | sub =>
      cases applied
      rw [apply, Int.sub_eq_add_neg, BitVec.ofInt_add, BitVec.ofInt_neg,
        BitVec.sub_eq_add_neg]
  | mul =>
      cases applied
      rw [apply, BitVec.ofInt_mul]
  | div => cases applied

namespace Expr

def IsPolynomial : Expr → Prop
  | .value _ => True
  | .binary op left right => op ≠ .div ∧ left.IsPolynomial ∧ right.IsPolynomial
  | .print _ => False

/-- The value over the integers, where nothing wraps. -/
def integer : Expr → Option Int
  | .value number => some number.toNat
  | .binary op left right => do
      let left ← left.integer
      let right ← right.integer
      op.onIntegers left right
  | .print _ => none

variable {expr : Expr} {value : Int}

theorem integer_binary_eq_some_iff {op : BinOp} {left right : Expr} :
    (binary op left right).integer = some value ↔
      ∃ leftValue, left.integer = some leftValue ∧
        ∃ rightValue, right.integer = some rightValue ∧
          op.onIntegers leftValue rightValue = some value := by
  simp [integer, Option.bind_eq_some_iff]

theorem IsPolynomial.printFree (polynomial : expr.IsPolynomial) : expr.PrintFree := by
  induction expr with
  | value number => trivial
  | binary op left right leftFree rightFree =>
      rcases polynomial with ⟨-, left, right⟩
      exact ⟨leftFree left, rightFree right⟩
  | print operand _ => exact polynomial

theorem IsPolynomial.exists_integer (polynomial : expr.IsPolynomial) :
    ∃ value, expr.integer = some value := by
  induction expr with
  | value number => exact ⟨number.toNat, rfl⟩
  | binary op left right leftExists rightExists =>
      rcases polynomial with ⟨notDivision, left, right⟩
      rcases leftExists left with ⟨leftValue, leftDefined⟩
      rcases rightExists right with ⟨rightValue, rightDefined⟩
      have applies : ∃ value, op.onIntegers leftValue rightValue = some value := by
        cases op with
        | add => exact ⟨_, rfl⟩
        | sub => exact ⟨_, rfl⟩
        | mul => exact ⟨_, rfl⟩
        | div => exact (notDivision rfl).elim
      rcases applies with ⟨value, applied⟩
      refine ⟨value, ?_⟩
      exact integer_binary_eq_some_iff.mpr ⟨_, leftDefined, _, rightDefined, applied⟩
  | print operand _ => exact polynomial.elim

theorem evaluate_of_integer (defined : expr.integer = some value) (sink : Sink) :
    expr.evaluate sink = .ok (some (BitVec.ofInt (8 * 8) value)) sink := by
  induction expr generalizing value with
  | value number =>
      cases defined
      rw [BitVec.ofInt_natCast, BitVec.ofNat_toNat, BitVec.setWidth_eq]
      rfl
  | binary op left right leftEvaluates rightEvaluates =>
      rcases integer_binary_eq_some_iff.mp defined with
        ⟨_, leftDefined, _, rightDefined, applied⟩
      rw [evaluate_binary, EStateM.bind_of_ok (rightEvaluates rightDefined),
        EStateM.bind_of_ok (leftEvaluates leftDefined),
        BinOp.combine_of_ok (BinOp.apply_ofInt applied)]
  | print operand _ => cases defined

theorem line_ofInt (value : Int) :
    line (some (BitVec.ofInt (8 * 8) value)) = toString (value % 2 ^ 64) := by
  have nonnegative : 0 ≤ value % 2 ^ 64 := Int.emod_nonneg value (by decide)
  have natural := Int.toNat_of_nonneg nonnegative
  rw [line, BitVec.toNat_ofInt, ← natural]
  rfl

end Expr

namespace Backend

variable {backend : Backend} {expr : Expr} {resources : Resources} {value : Int}

theorem visible_print_of_integer (polynomial : expr.IsPolynomial)
    (defined : expr.integer = some value) (room : backend.HasRoomFor expr resources)
    (effects : Effects) :
    visible backend (.print expr) resources effects =
      settle (Sink.writeLine (toString (value % 2 ^ 64)) effects.sink) := by
  have typed := Expr.HasTy.print (Expr.hasTy_u64_iff.mpr polynomial.printFree)
  have evaluates := Expr.evaluate_of_integer defined effects.sink
  rw [visible_of_hasRoomFor typed room, Expr.evaluate_print, EStateM.bind_of_ok evaluates,
    Expr.line_ofInt, settle_bind_pure]

/-- What is printed is the value over the integers, reduced once. Two expressions with
values that differ by a multiple of `2 ^ 64` cannot be told apart by what they print,
whatever it is printed into. -/
theorem visible_print_polynomial (polynomial : expr.IsPolynomial) :
    ∃ value, expr.integer = some value ∧
      (∀ backend resources text events, HasRoomFor backend expr resources →
        visible backend (.print expr) resources ⟨{ text }, events⟩ =
          (.ok (), { text := text ++ (toString (value % 2 ^ 64) ++ "\n") })) ∧
      ∀ other otherValue, other.IsPolynomial → other.integer = some otherValue →
        value ≡ otherValue [ZMOD 2 ^ 64] →
        ∀ backend resources otherBackend otherResources effects,
          HasRoomFor backend expr resources →
          HasRoomFor otherBackend other otherResources →
            visible backend (.print expr) resources effects =
              visible otherBackend (.print other) otherResources effects := by
  rcases polynomial.exists_integer with ⟨value, defined⟩
  refine ⟨value, defined, ?_, ?_⟩
  · intro backend resources text events room
    rw [visible_print_of_integer polynomial defined room]
    rfl
  · intro other otherValue otherPolynomial otherDefined congruent backend resources
      otherBackend otherResources effects room otherRoom
    have reduced : value % 2 ^ 64 = otherValue % 2 ^ 64 := congruent
    rw [visible_print_of_integer polynomial defined room,
      visible_print_of_integer otherPolynomial otherDefined otherRoom, reduced]

theorem visible_print_polynomial_negative :
    let expr : Expr := .binary .mul (.binary .sub (.value 1) (.value 3)) (.value 5)
    let other : Expr := .value 18446744073709551606
    let full : Effects := { sink := { room := some 7 } }
    expr.integer = some (-10) ∧
      visible .threaded (.print expr) { stackSize := 24 } {} =
        (.ok (), { text := "18446744073709551606\n" }) ∧
      visible .threaded (.print expr) { stackSize := 24 } full =
        visible .walker (.print other) {} full := by
  intro expr other full
  have polynomial : expr.IsPolynomial := by simp [expr, Expr.IsPolynomial]
  have room : HasRoomFor .threaded expr { stackSize := 24 } := ⟨by decide, by decide⟩
  rcases visible_print_polynomial polynomial with ⟨value, defined, prints, alike⟩
  cases defined
  refine ⟨rfl, prints .threaded _ "" #[] room, ?_⟩
  exact alike other _ trivial rfl (by decide) _ _ _ _ _ room trivial

end Backend

end ExprMachine

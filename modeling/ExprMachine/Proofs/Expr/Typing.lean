import ExprMachine.Expr.Typing
import ExprMachine.Proofs.Sequencing

/-! # Typing as a relation

The checker accepts exactly the expressions that have a type here, and it answers
with that type. -/

namespace ExprMachine

theorem Ty.requireScalar_eq_ok_iff {op : BinOp} {ty : Ty} {scalar : Scalar} :
    ty.requireScalar op = .ok scalar ↔ ty = scalar.ty := by
  cases scalar
  cases ty <;> simp [requireScalar, scalar?, Scalar.ty]

theorem Ty.requireScalar_eq_error_iff {op : BinOp} {ty : Ty} {error : TypeError} :
    ty.requireScalar op = .error error ↔ ty = .none ∧ error = .notScalar op .none := by
  cases ty <;> simp [requireScalar, scalar?, eq_comm]

namespace Expr

/-- Arithmetic works on numbers alone; whatever has a type can be printed. -/
inductive HasTy : Expr → Ty → Prop where
  | value (number : Word 8) : HasTy (.value number) .u64
  | binary (op : BinOp) {left right : Expr} :
      HasTy left .u64 → HasTy right .u64 → HasTy (.binary op left right) .u64
  | print {operand : Expr} {ty : Ty} : HasTy operand ty → HasTy (.print operand) .none

def PrintFree : Expr → Prop
  | .value _ => True
  | .binary _ left right => left.PrintFree ∧ right.PrintFree
  | .print _ => False

variable {expr left right : Expr} {op : BinOp} {ty : Ty} {error : TypeError}

theorem commonTy_eq_ok_iff :
    commonTy op left right = .ok ty ↔ left.ty = ty ∧ right.ty = ty := by
  rw [commonTy]
  split
  · rename_i agree
    simp [← agree]
  · rename_i differ
    constructor
    · intro impossible
      cases impossible
    · rintro ⟨rfl, right⟩
      exact absurd right.symm differ

theorem commonTy_eq_error_iff :
    commonTy op left right = .error error ↔
      left.ty ≠ right.ty ∧ error = .mismatch op left.ty right.ty := by
  rw [commonTy]
  split
  · rename_i agree
    simp [agree]
  · rename_i differ
    simp [differ, eq_comm]

theorem HasTy.ty_eq (typed : expr.HasTy ty) : expr.ty = ty := by
  induction typed with
  | value number => rfl
  | binary op left right leftTy rightTy => exact leftTy
  | print operand operandTy => rfl

theorem HasTy.check_eq (typed : expr.HasTy ty) : expr.check = .ok ty := by
  induction typed with
  | value number => rfl
  | binary op left right leftOk rightOk =>
      have common : commonTy op _ _ = .ok .u64 :=
        commonTy_eq_ok_iff.mpr ⟨left.ty_eq, right.ty_eq⟩
      simp only [check, common, leftOk, rightOk]
      rfl
  | print operand operandOk =>
      simp only [check, operandOk]
      rfl

theorem HasTy.of_check (checked : expr.check = .ok ty) : expr.HasTy ty := by
  induction expr generalizing ty with
  | value number =>
      cases checked
      exact .value number
  | binary op left right leftTyped rightTyped =>
      simp only [check, Except.bind_eq_ok_iff, commonTy_eq_ok_iff,
        Ty.requireScalar_eq_ok_iff] at checked
      rcases checked with ⟨common, ⟨leftCommon, rightCommon⟩, rightTy, rightOk, leftTy,
        leftOk, scalar, rfl, same⟩
      cases scalar
      cases same
      have left := leftTyped leftOk
      have right := rightTyped rightOk
      rw [← left.ty_eq, leftCommon] at left
      rw [← right.ty_eq, rightCommon] at right
      exact .binary op left right
  | print operand operandTyped =>
      simp only [check, Except.bind_eq_ok_iff] at checked
      rcases checked with ⟨operandTy, operandOk, same⟩
      cases same
      exact .print (operandTyped operandOk)

theorem check_eq_ok_iff : expr.check = .ok ty ↔ expr.HasTy ty :=
  ⟨HasTy.of_check, HasTy.check_eq⟩

theorem check_binary_eq_error_iff :
    (binary op left right).check = .error error ↔
      (left.ty ≠ right.ty ∧ error = .mismatch op left.ty right.ty) ∨
      (left.ty = right.ty ∧ right.check = .error error) ∨
      (left.ty = right.ty ∧ (∃ ty, right.HasTy ty) ∧ left.check = .error error) ∨
      (left.HasTy .none ∧ right.HasTy .none ∧ error = .notScalar op .none) := by
  constructor
  · intro refused
    simp only [check, Except.bind_eq_error_iff, commonTy_eq_error_iff, commonTy_eq_ok_iff,
      check_eq_ok_iff, Ty.requireScalar_eq_error_iff] at refused
    rcases refused with mismatch | ⟨ty, ⟨leftTy, rightTy⟩, refused⟩
    · exact .inl mismatch
    · have agree : left.ty = right.ty := leftTy.trans rightTy.symm
      rcases refused with
        rightRefused | ⟨_, rightTyped, leftRefused | ⟨_, leftTyped, refused⟩⟩
      · exact .inr (.inl ⟨agree, rightRefused⟩)
      · exact .inr (.inr (.inl ⟨agree, ⟨_, rightTyped⟩, leftRefused⟩))
      · rcases refused with ⟨rfl, same⟩ | ⟨_, _, impossible⟩
        · rw [← rightTyped.ty_eq, rightTy] at rightTyped
          rw [← leftTyped.ty_eq, leftTy] at leftTyped
          exact .inr (.inr (.inr ⟨leftTyped, rightTyped, same⟩))
        · cases impossible
  · rintro (mismatch | ⟨agree, rightRefused⟩ | ⟨agree, ⟨_, rightTyped⟩, leftRefused⟩ |
      ⟨leftTyped, rightTyped, rfl⟩)
    · rw [check, commonTy_eq_error_iff.mpr mismatch]
      rfl
    · rw [check, commonTy_eq_ok_iff.mpr ⟨agree, rfl⟩, rightRefused]
      rfl
    · rw [check, commonTy_eq_ok_iff.mpr ⟨agree, rfl⟩, rightTyped.check_eq, leftRefused]
      rfl
    · rw [check, commonTy_eq_ok_iff.mpr ⟨leftTyped.ty_eq, rightTyped.ty_eq⟩,
        rightTyped.check_eq, leftTyped.check_eq]
      rfl

theorem check_print_eq_error_iff :
    (print expr).check = .error error ↔ expr.check = .error error := by
  simp [check, Except.bind_eq_error_iff, pure, Except.pure]

theorem hasTy_u64_iff : expr.HasTy .u64 ↔ expr.PrintFree := by
  constructor
  · intro typed
    induction expr with
    | value number => trivial
    | binary op left right leftFree rightFree =>
        cases typed with
        | binary _ left right => exact ⟨leftFree left, rightFree right⟩
    | print operand _ => cases typed
  · intro free
    induction expr with
    | value number => exact .value number
    | binary op left right leftTyped rightTyped =>
        exact .binary op (leftTyped free.1) (rightTyped free.2)
    | print operand _ => exact free.elim

end Expr

end ExprMachine

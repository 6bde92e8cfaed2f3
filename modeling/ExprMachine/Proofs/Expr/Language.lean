import ExprMachine.Proofs.Expr.Typing

/-! # The language that is accepted

The checker compares the types of two operands, and it finds a type by going down the
left operands alone. All the same, what it accepts is one plain language: arithmetic in
which nothing is printed, under any number of prints. -/

namespace ExprMachine.Expr

def printTimes (expr : Expr) : Nat → Expr
  | 0 => expr
  | count + 1 => .print (expr.printTimes count)

variable {expr operand : Expr} {ty : Ty}

theorem HasTy.printTimes (typed : expr.HasTy ty) (count : Nat) :
    (expr.printTimes count).HasTy (if count = 0 then ty else .none) := by
  induction count with
  | zero => exact typed
  | succ count induction => exact .print induction

/-- Prints can only stand around everything else, since what they leave is no operand. -/
theorem HasTy.exists_printTimes (typed : expr.HasTy ty) :
    ∃ (core : Expr) (count : Nat), core.PrintFree ∧ expr = core.printTimes count := by
  induction typed with
  | value number => exact ⟨.value number, 0, trivial, rfl⟩
  | @binary op left right leftTyped rightTyped =>
      -- Both operands are numbers, so neither of them is a print.
      exact ⟨.binary op left right, 0, hasTy_u64_iff.mp (.binary op leftTyped rightTyped),
        rfl⟩
  | print _ operandPrints =>
      rcases operandPrints with ⟨core, count, free, rfl⟩
      exact ⟨core, count + 1, free, rfl⟩

theorem hasTy_iff_exists_printTimes :
    expr.HasTy ty ↔
      ∃ (core : Expr) (count : Nat), core.PrintFree ∧ expr = core.printTimes count ∧
        ty = if count = 0 then .u64 else .none := by
  constructor
  · intro typed
    rcases typed.exists_printTimes with ⟨core, count, free, rfl⟩
    have known := (hasTy_u64_iff.mpr free).printTimes count
    exact ⟨core, count, free, rfl, typed.ty_eq.symm.trans known.ty_eq⟩
  · rintro ⟨core, count, free, rfl, rfl⟩
    exact (hasTy_u64_iff.mpr free).printTimes count

/-! ## Parts -/

/-- Part of an expression is the expression itself and every part of its operands. -/
inductive IsPart (part : Expr) : Expr → Prop where
  | whole : IsPart part part
  | left (op : BinOp) {left : Expr} (right : Expr) :
      IsPart part left → IsPart part (.binary op left right)
  | right (op : BinOp) (left : Expr) {right : Expr} :
      IsPart part right → IsPart part (.binary op left right)
  | operand {operand : Expr} : IsPart part operand → IsPart part (.print operand)

theorem PrintFree.not_isPart (free : expr.PrintFree) : ¬IsPart (.print operand) expr := by
  intro part
  induction part with
  | whole => exact free
  | left op right _ induction => exact induction free.1
  | right op left _ induction => exact induction free.2
  | operand _ _ => exact free

theorem HasTy.of_isPart {part : Expr} (typed : expr.HasTy ty) (isPart : IsPart part expr) :
    ∃ partTy, part.HasTy partTy := by
  induction isPart generalizing ty with
  | whole => exact ⟨ty, typed⟩
  | left op right _ induction =>
      cases typed with
      | binary _ left _ => exact induction left
  | right op left _ induction =>
      cases typed with
      | binary _ _ right => exact induction right
  | operand _ induction =>
      cases typed with
      | print operand => exact induction operand

theorem HasTy.printFree_of_isPart {op : BinOp} {left right : Expr} (typed : expr.HasTy ty)
    (isPart : IsPart (.binary op left right) expr) :
    (Expr.binary op left right).PrintFree := by
  rcases typed.of_isPart isPart with ⟨_, partTyped⟩
  cases partTyped with
  | binary _ leftTyped rightTyped =>
      exact hasTy_u64_iff.mp (.binary op leftTyped rightTyped)

theorem check_accepts_exactly (expr : Expr) :
    (∀ ty, expr.check = .ok ty ↔
      ∃ (core : Expr) (count : Nat), core.PrintFree ∧ expr = core.printTimes count ∧
        ty = if count = 0 then .u64 else .none) ∧
    ∀ ty, expr.check = .ok ty →
      ∀ op left right, IsPart (.binary op left right) expr →
        ∀ operand, ¬IsPart (.print operand) (.binary op left right) := by
  constructor
  · intro ty
    rw [check_eq_ok_iff, hasTy_iff_exists_printTimes]
  · intro ty checked op left right isPart operand
    exact ((HasTy.of_check checked).printFree_of_isPart isPart).not_isPart

theorem check_accepts_exactly_printed_difference :
    let quotient : Expr := .binary .div (.value 3) (.value 2)
    let expr : Expr := .print (.print (.binary .sub (.value 7) quotient))
    expr.check = .ok .none ∧ ∀ operand, ¬IsPart (.print operand) quotient := by
  intro quotient expr
  have general := check_accepts_exactly expr
  have checked : expr.check = .ok .none := (general.1 .none).mpr
    ⟨.binary .sub (.value 7) quotient, 2, ⟨trivial, trivial, trivial⟩, rfl, rfl⟩
  have isPart : IsPart quotient expr := .operand (.operand (.right .sub _ .whole))
  exact ⟨checked, general.2 .none checked _ _ _ isPart⟩

end ExprMachine.Expr

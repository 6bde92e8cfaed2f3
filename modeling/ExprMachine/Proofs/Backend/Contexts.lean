import ExprMachine.Proofs.Backend.Agreement
import ExprMachine.Proofs.Expr.Language

/-! # Parts that can be exchanged

An expression with a hole makes something of what the hole is filled with, and of that only
the type counts, the first error and what evaluation does. Arithmetic that comes to the same
value, or to no value, can be exchanged for one another in any place: what stands around it
may be ill typed, fail before or after, and print. -/

namespace ExprMachine

namespace Expr

/-! ## Expressions with a hole -/

inductive Context where
  | hole
  | left (op : BinOp) (context : Context) (other : Expr)
  | right (op : BinOp) (other : Expr) (context : Context)
  | print (context : Context)
deriving DecidableEq

def Context.fill : Context → Expr → Expr
  | .hole, expr => expr
  | .left op context other, expr => .binary op (context.fill expr) other
  | .right op other context, expr => .binary op other (context.fill expr)
  | .print context, expr => .print (context.fill expr)

theorem isPart_iff_exists_fill {part expr : Expr} :
    IsPart part expr ↔ ∃ context : Context, context.fill part = expr := by
  constructor
  · intro isPart
    induction isPart with
    | whole => exact ⟨.hole, rfl⟩
    | left op right _ induction =>
        rcases induction with ⟨context, rfl⟩
        exact ⟨.left op context right, rfl⟩
    | right op left _ induction =>
        rcases induction with ⟨context, rfl⟩
        exact ⟨.right op left context, rfl⟩
    | operand _ induction =>
        rcases induction with ⟨context, rfl⟩
        exact ⟨.print context, rfl⟩
  · rintro ⟨context, rfl⟩
    induction context with
    | hole => exact .whole
    | left op context other induction => exact .left op other induction
    | right op other context induction => exact .right op other induction
    | print context induction => exact .operand induction

/-! ## What the hole lets through -/

/-- The expressions do not differ in anything that those around them make use of. -/
structure Interchangeable (first second : Expr) : Prop where
  ty_eq : first.ty = second.ty
  check_eq : first.check = second.check
  evaluate_eq : first.evaluate = second.evaluate

variable {first second : Expr}

theorem Interchangeable.fill (same : Interchangeable first second) (context : Context) :
    Interchangeable (context.fill first) (context.fill second) := by
  induction context with
  | hole => exact same
  | left op context other induction =>
      rcases induction with ⟨ty, check, evaluate⟩
      constructor
      · exact ty
      · rw [Context.fill, Context.fill, Expr.check, Expr.check, commonTy, commonTy, ty, check]
      · rw [Context.fill, Context.fill, evaluate_binary, evaluate_binary, evaluate]
  | right op other context induction =>
      rcases induction with ⟨ty, check, evaluate⟩
      constructor
      · rfl
      · rw [Context.fill, Context.fill, Expr.check, Expr.check, commonTy, commonTy, ty, check]
      · rw [Context.fill, Context.fill, evaluate_binary, evaluate_binary, evaluate]
  | print context induction =>
      rcases induction with ⟨-, check, evaluate⟩
      constructor
      · rfl
      · rw [Context.fill, Context.fill, Expr.check, Expr.check, check]
      · rw [Context.fill, Context.fill, evaluate_print, evaluate_print, evaluate]

theorem PrintFree.exists_evaluate_eq {expr : Expr} (free : expr.PrintFree) :
    ∃ answer, expr.evaluate = MonadExcept.ofExcept answer := by
  cases defined : expr.reference with
  | none =>
      refine ⟨.error .divisionByZero, ?_⟩
      funext sink
      exact (hasTy_u64_iff.mpr free).evaluate_of_none defined sink
  | some value =>
      refine ⟨.ok (some (BitVec.ofNat _ value)), ?_⟩
      funext sink
      rcases free.evaluate_of_some defined sink with ⟨number, rfl, evaluates⟩
      rw [evaluates, BitVec.ofNat_toNat, BitVec.setWidth_eq]
      rfl

theorem outcome_ofExcept (answer : Except Fault (Option (Word 8))) (sink : Sink) :
    outcome ((MonadExcept.ofExcept answer : EStateM Fault Sink _) sink) = (answer, sink) := by
  cases answer <;> rfl

theorem PrintFree.interchangeable (firstFree : first.PrintFree)
    (secondFree : second.PrintFree)
    (alike : (outcome (first.evaluate {})).1 = (outcome (second.evaluate {})).1) :
    Interchangeable first second := by
  have firstTyped := hasTy_u64_iff.mpr firstFree
  have secondTyped := hasTy_u64_iff.mpr secondFree
  rcases firstFree.exists_evaluate_eq with ⟨firstAnswer, firstEq⟩
  rcases secondFree.exists_evaluate_eq with ⟨secondAnswer, secondEq⟩
  constructor
  · rw [firstTyped.ty_eq, secondTyped.ty_eq]
  · rw [firstTyped.check_eq, secondTyped.check_eq]
  · rw [firstEq, secondEq, outcome_ofExcept, outcome_ofExcept] at alike
    have answers : firstAnswer = secondAnswer := alike
    rw [firstEq, secondEq, answers]

end Expr

namespace Backend

variable {backend : Backend} {first second : Expr} {resources : Resources}

theorem visible_eq_of_interchangeable (same : Expr.Interchangeable first second)
    (firstRoom : backend.HasRoomFor first resources)
    (secondRoom : backend.HasRoomFor second resources) (effects : Effects) :
    visible backend first resources effects = visible backend second resources effects := by
  cases checked : first.check with
  | error error =>
      have refused : second.check = .error error := same.check_eq.symm.trans checked
      rw [visible_of_check_error checked, visible_of_check_error refused]
  | ok ty =>
      have typed := Expr.HasTy.of_check checked
      have alsoTyped := Expr.HasTy.of_check (same.check_eq.symm.trans checked)
      rw [visible_of_hasRoomFor typed firstRoom, visible_of_hasRoomFor alsoTyped secondRoom,
        same.evaluate_eq]

/-- Two pieces of arithmetic that come to the same, evaluated on their own, come to the same
wherever they stand, to the checker and to both backends. -/
theorem visible_fill_eq (firstFree : first.PrintFree) (secondFree : second.PrintFree)
    (alike : (outcome (first.evaluate {})).1 = (outcome (second.evaluate {})).1)
    (context : Expr.Context) :
    (context.fill first).check = (context.fill second).check ∧
      ∀ backend resources effects,
        HasRoomFor backend (context.fill first) resources →
        HasRoomFor backend (context.fill second) resources →
          visible backend (context.fill first) resources effects =
            visible backend (context.fill second) resources effects := by
  have same := (firstFree.interchangeable secondFree alike).fill context
  refine ⟨same.check_eq, ?_⟩
  intro backend resources effects firstRoom secondRoom
  exact visible_eq_of_interchangeable same firstRoom secondRoom effects

/-- A product that wraps around to zero and the literal zero, once where it is printed into
a sink that is almost full, and once beside an operand of another type. -/
theorem visible_fill_eq_wrapped_product :
    let product : Expr := .binary .mul (.value 9223372036854775808) (.value 2)
    let zero : Expr := .value 0
    let printed : Expr.Context :=
      .print (.right .sub (.value 5) (.left .add .hole (.value 10)))
    let illTyped : Expr.Context := .left .div .hole (.print (.value 1))
    let full : Effects := { sink := { room := some 7 } }
    visible .threaded (printed.fill product) { stackSize := 24 } full =
        visible .threaded (printed.fill zero) { stackSize := 24 } full ∧
      (illTyped.fill product).check = (illTyped.fill zero).check := by
  intro product zero printed illTyped full
  have productFree : product.PrintFree := ⟨trivial, trivial⟩
  have zeroFree : zero.PrintFree := trivial
  have general := visible_fill_eq productFree zeroFree rfl
  have productRoom : HasRoomFor .threaded (printed.fill product) { stackSize := 24 } :=
    ⟨by decide, by decide⟩
  have zeroRoom : HasRoomFor .threaded (printed.fill zero) { stackSize := 24 } :=
    ⟨by decide, by decide⟩
  exact ⟨(general printed).2 _ _ _ productRoom zeroRoom, (general illTyped).1⟩

end Backend

end ExprMachine

import ExprMachine.Proofs.Expr.Typing

/-! # The error that is reported

An expression can be ill typed in many places. The checker reports one of them, the first
that it comes to, and which one that is can be told without following the checker: on the
way down to it there is no operator whose operands differ in type, and where the way goes
to the left, nothing in the right operand is refused. -/

namespace ExprMachine.Expr

/-! ## Places in an expression -/

inductive Branch where
  | left
  | right
  | operand
deriving DecidableEq

def child? : Expr → Branch → Option Expr
  | .binary _ left _, .left => some left
  | .binary _ _ right, .right => some right
  | .print operand, .operand => some operand
  | _, _ => none

/-- What stands at the end of the path, if the path does not leave the expression. -/
def partAt? (expr : Expr) : List Branch → Option Expr
  | [] => some expr
  | branch :: path => do
      let child ← expr.child? branch
      child.partAt? path

variable {expr operand left right : Expr} {op : BinOp} {branch : Branch}
variable {path : List Branch} {error : TypeError}

/-! ## What the checker comes to first -/

/-- The operators above the end of the path are not refused before the checker gets there.
Their operands have one type, and where the path goes to the left the right operand has
been accepted. -/
def Reaches (expr : Expr) (path : List Branch) : Prop :=
  ∀ above branch below, path = above ++ branch :: below →
    ∀ op left right, expr.partAt? above = some (.binary op left right) →
      left.ty = right.ty ∧ (branch = .left → ∃ ty, right.check = .ok ty)

/-- The error is due to the operator itself and not to one in an operand. -/
inductive Offends : Expr → TypeError → Prop where
  | mismatch (op : BinOp) {left right : Expr} : left.ty ≠ right.ty →
      Offends (.binary op left right) (.mismatch op left.ty right.ty)
  | notScalar (op : BinOp) {left right : Expr} {leftTy rightTy : Ty} :
      left.ty = .none → right.ty = .none →
        left.check = .ok leftTy → right.check = .ok rightTy →
          Offends (.binary op left right) (.notScalar op .none)

/-- The operator at the end of the path is at fault, and it is reached. -/
structure FirstError (expr : Expr) (path : List Branch) (error : TypeError) : Prop where
  reached : expr.Reaches path
  offends : ∃ part, expr.partAt? path = some part ∧ part.Offends error

theorem reaches_nil : expr.Reaches [] := by
  intro above branch below split
  cases above <;> cases split

theorem reaches_cons_iff {child : Expr} (found : expr.child? branch = some child) :
    expr.Reaches (branch :: path) ↔
      (∀ op left right, expr = .binary op left right →
        left.ty = right.ty ∧ (branch = .left → ∃ ty, right.check = .ok ty)) ∧
      child.Reaches path := by
  have beneath : ∀ above, expr.partAt? (branch :: above) = child.partAt? above := by
    intro above
    rw [partAt?, found]
    rfl
  constructor
  · intro reached
    constructor
    · intro op left right same
      exact reached [] branch path rfl op left right (congrArg some same)
    · intro above next below split op left right node
      rw [← beneath] at node
      exact reached _ next below (congrArg (branch :: ·) split) op left right node
  · rintro ⟨atRoot, childReached⟩ above next below split op left right node
    cases above with
    | nil =>
        cases split
        exact atRoot op left right (Option.some.inj node)
    | cons first above =>
        cases split
        rw [beneath] at node
        exact childReached above next below rfl op left right node

theorem firstError_nil_iff : expr.FirstError [] error ↔ expr.Offends error := by
  constructor
  · rintro ⟨-, part, found, offends⟩
    cases found
    exact offends
  · intro offends
    exact ⟨reaches_nil, expr, rfl, offends⟩

theorem firstError_cons_iff :
    expr.FirstError (branch :: path) error ↔
      (∀ op left right, expr = .binary op left right →
        left.ty = right.ty ∧ (branch = .left → ∃ ty, right.check = .ok ty)) ∧
      ∃ child, expr.child? branch = some child ∧ child.FirstError path error := by
  constructor
  · rintro ⟨reached, part, found, offends⟩
    rcases Option.bind_eq_some_iff.mp found with ⟨child, isChild, found⟩
    rcases (reaches_cons_iff isChild).mp reached with ⟨atRoot, reached⟩
    exact ⟨atRoot, child, isChild, reached, part, found, offends⟩
  · rintro ⟨atRoot, child, isChild, reached, part, found, offends⟩
    refine ⟨(reaches_cons_iff isChild).mpr ⟨atRoot, reached⟩, part, ?_, offends⟩
    exact Option.bind_eq_some_iff.mpr ⟨child, isChild, found⟩

theorem firstError_left_iff :
    (binary op left right).FirstError (.left :: path) error ↔
      left.ty = right.ty ∧ (∃ ty, right.check = .ok ty) ∧ left.FirstError path error := by
  simp [firstError_cons_iff, child?, and_assoc]

theorem firstError_right_iff :
    (binary op left right).FirstError (.right :: path) error ↔
      left.ty = right.ty ∧ right.FirstError path error := by
  simp [firstError_cons_iff, child?]

theorem firstError_operand_iff :
    (print operand).FirstError (.operand :: path) error ↔ operand.FirstError path error := by
  simp [firstError_cons_iff, child?]

/-! ## The checker reports it -/

theorem Offends.check_eq (offends : expr.Offends error) : expr.check = .error error := by
  cases offends with
  | mismatch op differ => exact check_binary_eq_error_iff.mpr (.inl ⟨differ, rfl⟩)
  | notScalar op leftTy rightTy leftOk rightOk =>
      have leftTyped := HasTy.of_check leftOk
      have rightTyped := HasTy.of_check rightOk
      rw [← leftTyped.ty_eq, leftTy] at leftTyped
      rw [← rightTyped.ty_eq, rightTy] at rightTyped
      exact check_binary_eq_error_iff.mpr (.inr (.inr (.inr ⟨leftTyped, rightTyped, rfl⟩)))

theorem FirstError.check_eq (first : expr.FirstError path error) :
    expr.check = .error error := by
  induction path generalizing expr with
  | nil => exact (firstError_nil_iff.mp first).check_eq
  | cons branch path induction =>
      rcases firstError_cons_iff.mp first with ⟨atRoot, child, isChild, first⟩
      have refused := induction first
      cases expr with
      | value number => cases isChild
      | binary op left right =>
          rcases atRoot op left right rfl with ⟨agree, rightOk⟩
          apply check_binary_eq_error_iff.mpr
          cases branch with
          | left =>
              cases isChild
              rcases rightOk rfl with ⟨ty, rightOk⟩
              exact .inr (.inr (.inl ⟨agree, ⟨ty, .of_check rightOk⟩, refused⟩))
          | right =>
              cases isChild
              exact .inr (.inl ⟨agree, refused⟩)
          | operand => cases isChild
      | print operand =>
          cases branch with
          | left => cases isChild
          | right => cases isChild
          | operand =>
              cases isChild
              exact check_print_eq_error_iff.mpr refused

theorem exists_firstError_of_check (refused : expr.check = .error error) :
    ∃ path, expr.FirstError path error := by
  induction expr with
  | value number => cases refused
  | binary op left right leftFirst rightFirst =>
      rcases check_binary_eq_error_iff.mp refused with ⟨differ, rfl⟩ | ⟨agree, refused⟩ |
        ⟨agree, ⟨ty, rightTyped⟩, refused⟩ | ⟨leftTyped, rightTyped, rfl⟩
      · exact ⟨[], firstError_nil_iff.mpr (.mismatch op differ)⟩
      · rcases rightFirst refused with ⟨path, first⟩
        exact ⟨.right :: path, firstError_right_iff.mpr ⟨agree, first⟩⟩
      · rcases leftFirst refused with ⟨path, first⟩
        exact ⟨.left :: path,
          firstError_left_iff.mpr ⟨agree, ⟨ty, rightTyped.check_eq⟩, first⟩⟩
      · exact ⟨[], firstError_nil_iff.mpr (.notScalar op leftTyped.ty_eq rightTyped.ty_eq
          leftTyped.check_eq rightTyped.check_eq)⟩
  | print operand operandFirst =>
      rcases operandFirst (check_print_eq_error_iff.mp refused) with ⟨path, first⟩
      exact ⟨.operand :: path, firstError_operand_iff.mpr first⟩

/-! ## There is only one -/

theorem Offends.not_firstError_cons {other : TypeError} (offends : expr.Offends error) :
    ¬expr.FirstError (branch :: path) other := by
  intro beneath
  rcases firstError_cons_iff.mp beneath with ⟨atRoot, child, isChild, beneath⟩
  have refused := beneath.check_eq
  cases offends with
  | mismatch op differ => exact differ (atRoot _ _ _ rfl).1
  | notScalar op leftTy rightTy leftOk rightOk =>
      cases branch with
      | left =>
          cases isChild
          rw [leftOk] at refused
          cases refused
      | right =>
          cases isChild
          rw [rightOk] at refused
          cases refused
      | operand => cases isChild

theorem not_firstError_left_and_right {first second : List Branch} {other : TypeError}
    (onLeft : (binary op left right).FirstError (.left :: first) error)
    (onRight : (binary op left right).FirstError (.right :: second) other) : False := by
  rcases firstError_left_iff.mp onLeft with ⟨-, ⟨ty, rightOk⟩, -⟩
  have refused := (firstError_right_iff.mp onRight).2.check_eq
  rw [rightOk] at refused
  cases refused

theorem FirstError.branch_eq {first second : List Branch} {otherBranch : Branch}
    {other : TypeError} (atFirst : expr.FirstError (branch :: first) error)
    (atSecond : expr.FirstError (otherBranch :: second) other) : branch = otherBranch := by
  rcases (firstError_cons_iff.mp atFirst).2 with ⟨_, isChild, -⟩
  rcases (firstError_cons_iff.mp atSecond).2 with ⟨_, otherIsChild, -⟩
  cases expr with
  | value number => cases isChild
  | binary op left right =>
      cases branch with
      | left =>
          cases otherBranch with
          | left => rfl
          | right => exact (not_firstError_left_and_right atFirst atSecond).elim
          | operand => cases otherIsChild
      | right =>
          cases otherBranch with
          | left => exact (not_firstError_left_and_right atSecond atFirst).elim
          | right => rfl
          | operand => cases otherIsChild
      | operand => cases isChild
  | print operand =>
      cases branch <;> cases isChild
      cases otherBranch <;> cases otherIsChild
      rfl

theorem FirstError.path_eq {first second : List Branch} {other : TypeError}
    (atFirst : expr.FirstError first error) (atSecond : expr.FirstError second other) :
    first = second := by
  induction first generalizing expr second with
  | nil =>
      cases second with
      | nil => rfl
      | cons branch second =>
          exact absurd atSecond (firstError_nil_iff.mp atFirst).not_firstError_cons
  | cons branch first induction =>
      cases second with
      | nil => exact absurd atFirst (firstError_nil_iff.mp atSecond).not_firstError_cons
      | cons otherBranch second =>
          cases atFirst.branch_eq atSecond
          rcases (firstError_cons_iff.mp atFirst).2 with ⟨child, isChild, beneathFirst⟩
          rcases (firstError_cons_iff.mp atSecond).2 with ⟨_, isSame, beneathSecond⟩
          cases isChild.symm.trans isSame
          rw [induction beneathFirst beneathSecond]

/-- An expression is refused for what is wrong at one place, and it is the first error at
that place and at no other. -/
theorem check_reports_first_error (expr : Expr) :
    (∀ error, expr.check = .error error ↔ ∃ path, expr.FirstError path error) ∧
      ∀ first second error other, expr.FirstError first error →
        expr.FirstError second other → first = second := by
  constructor
  · intro error
    constructor
    · exact exists_firstError_of_check
    · rintro ⟨path, first⟩
      exact first.check_eq
  · intro first second error other atFirst atSecond
    exact atFirst.path_eq atSecond

/-- The sum on the left has operands of two types, but the product on the right, although
it is further down, comes first. -/
theorem check_reports_first_error_product :
    let sum : Expr := .binary .add (.print (.value 1)) (.value 2)
    let product : Expr := .binary .mul (.print (.value 3)) (.print (.value 4))
    let expr : Expr := .binary .sub sum (.print product)
    expr.check = .error (.notScalar .mul .none) ∧
      expr.FirstError [.right, .operand] (.notScalar .mul .none) ∧
      ∀ error, ¬expr.FirstError [.left] error := by
  intro sum product expr
  have general := check_reports_first_error expr
  have offends : product.Offends (.notScalar .mul .none) := .notScalar .mul rfl rfl rfl rfl
  have first : expr.FirstError [.right, .operand] (.notScalar .mul .none) :=
    firstError_right_iff.mpr
      ⟨rfl, firstError_operand_iff.mpr (firstError_nil_iff.mpr offends)⟩
  refine ⟨(general.1 _).mpr ⟨_, first⟩, first, ?_⟩
  intro error onLeft
  cases general.2 _ _ _ _ first onLeft

end ExprMachine.Expr

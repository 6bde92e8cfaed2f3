import ExprMachine.Proofs.Backend.Agreement

/-! # How much stack an expression requires

The need of an expression is exact: with that many words the threaded backend never
overflows, and with fewer it always does, unless it divides by zero first. -/

namespace ExprMachine

namespace Expr

/-- The literals joined so that all operators but the last have one to their right. -/
def rightChain (first : Word 8) : List (BinOp × Word 8) → Expr
  | [] => .value first
  | (op, next) :: links => .binary op (.value first) (rightChain next links)

/-- The literals joined so that all operators but the first have one to their left. -/
def leftChain (first : Word 8) (links : List (BinOp × Word 8)) : Expr :=
  links.foldl (fun chain (op, next) => .binary op chain (.value next)) (.value first)

theorem hasTy_rightChain (first : Word 8) (links : List (BinOp × Word 8)) :
    (rightChain first links).HasTy .u64 := by
  induction links generalizing first with
  | nil => exact .value first
  | cons link links induction => exact .binary link.1 (.value first) (induction link.2)

theorem need_rightChain (first : Word 8) (link : BinOp × Word 8)
    (links : List (BinOp × Word 8)) :
    (rightChain first (link :: links)).need = 2 := by
  induction links generalizing first link with
  | nil => rfl
  | cons next links induction =>
      rw [rightChain, need, induction link.2 next]
      rfl

theorem hasTy_foldl_binary {chain : Expr} (typed : chain.HasTy .u64)
    (links : List (BinOp × Word 8)) :
    (links.foldl (fun chain (op, next) => .binary op chain (.value next)) chain).HasTy
      .u64 := by
  induction links generalizing chain with
  | nil => exact typed
  | cons link links induction => exact induction (.binary link.1 typed (.value link.2))

theorem need_foldl_binary (chain : Expr) (links : List (BinOp × Word 8)) :
    (links.foldl (fun chain (op, next) => .binary op chain (.value next)) chain).need =
      chain.need + links.length := by
  induction links generalizing chain with
  | nil => rfl
  | cons link links induction =>
      rw [List.foldl_cons, induction, need, need, List.length_cons]
      omega

theorem hasTy_leftChain (first : Word 8) (links : List (BinOp × Word 8)) :
    (leftChain first links).HasTy .u64 :=
  hasTy_foldl_binary (.value first) links

theorem need_leftChain (first : Word 8) (links : List (BinOp × Word 8)) :
    (leftChain first links).need = links.length + 1 := by
  rw [leftChain, need_foldl_binary, need, Nat.add_comm]

end Expr

namespace Backend

/-- Exactly `bytes` bytes of stack keep the threaded backend from an overflow. The sink
is as it was when there are fewer. -/
structure RequiresStack (expr : Expr) (bytes : Nat) : Prop where
  enough : ∀ (resources : Resources) (effects : Effects),
    resources.stackSize ≤ resources.memory → bytes ≤ resources.stackSize →
      ∀ sp size capacity, (visible .threaded expr resources effects).1 ≠
        .error (.runtime (.stackOverflow sp size capacity))
  tooLittle : ∀ (resources : Resources) (effects : Effects),
    resources.stackSize ≤ resources.memory → resources.stackSize < bytes →
      let overflow :=
        Fault.stackOverflow (8 * (resources.stackSize / 8)) 8 resources.stackSize
      (visible .threaded expr resources effects =
          (.error (.runtime overflow), effects.sink) ∨
        visible .threaded expr resources effects =
          (.error (.runtime .divisionByZero), effects.sink)) ∧
      (expr.reference.isSome →
        visible .threaded expr resources effects =
          (.error (.runtime overflow), effects.sink))

theorem requiresStack_of_hasTy {expr : Expr} {ty : Ty} (typed : expr.HasTy ty) :
    RequiresStack expr (8 * expr.need) where
  enough := by
    intro resources effects allocatable fits sp size capacity overflows
    rw [visible_threaded_of_fits typed allocatable fits, visible_walker typed]
      at overflows
    cases evaluated : expr.evaluate effects.sink with
    | ok value after =>
        rw [evaluated] at overflows
        cases overflows
    | error fault after =>
        rw [evaluated] at overflows
        cases overflows
        rcases typed.fault_of_evaluate evaluated with impossible | impossible
        · cases impossible
        · cases impossible
  tooLittle := by
    intro resources effects allocatable tight overflow
    rcases visible_threaded_of_not_fits typed allocatable tight effects with
      overflows | ⟨undefined, divides⟩
    · exact ⟨.inl overflows, fun _ => overflows⟩
    · refine ⟨.inr divides, fun defined => ?_⟩
      rw [undefined] at defined
      cases defined

/-- A chain that leans to the right keeps one literal below the operand it is about to
read, however long it is; a chain that leans to the left keeps all of them. -/
theorem stack_requirement :
    (∀ expr ty, expr.check = .ok ty → RequiresStack expr (8 * expr.need)) ∧
      (∀ first links, links ≠ [] → RequiresStack (Expr.rightChain first links) 16) ∧
      ∀ first links,
        RequiresStack (Expr.leftChain first links) (8 * (links.length + 1)) := by
  refine ⟨?_, ?_, ?_⟩
  · intro expr ty checked
    exact requiresStack_of_hasTy (Expr.HasTy.of_check checked)
  · intro first links several
    rcases List.exists_cons_of_ne_nil several with ⟨link, links, rfl⟩
    have required := requiresStack_of_hasTy (Expr.hasTy_rightChain first (link :: links))
    rw [Expr.need_rightChain] at required
    exact required
  · intro first links
    rw [← Expr.need_leftChain first links]
    exact requiresStack_of_hasTy (Expr.hasTy_leftChain first links)

theorem stack_requirement_three_literals :
    let links : List (BinOp × Word 8) := [(.sub, 2), (.div, 3)]
    visible .threaded (Expr.leftChain 1 links) { stackSize := 23 } {} =
        (.error (.runtime (.stackOverflow 16 8 23)), {}) ∧
      visible .threaded (Expr.rightChain 1 links) { stackSize := 15 } {} =
        (.error (.runtime (.stackOverflow 8 8 15)), {}) ∧
      RequiresStack (.print (Expr.leftChain 1 links)) 24 := by
  intro links
  have general := stack_requirement
  exact ⟨((general.2.2 1 links).tooLittle _ _ (by decide) (by decide)).2 rfl,
    ((general.2.1 1 links (by decide)).tooLittle _ _ (by decide) (by decide)).2 rfl,
    general.1 (.print (Expr.leftChain 1 links)) .none rfl⟩

end Backend

end ExprMachine

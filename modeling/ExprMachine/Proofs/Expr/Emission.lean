import ExprMachine.Expr.Compilation
import ExprMachine.Proofs.Expr.Typing

/-! # What compilation appends

A well-typed expression appends its constants and its instructions, whatever the
program was before, and an ill-typed one appends nothing. A sequence of expressions
therefore leaves the constants and the instructions of those that were accepted. -/

namespace ExprMachine

namespace Expr

/-- The literals, in the order in which their constants are read. -/
def constants : Expr → List (Word 8)
  | .value number => [number]
  | .binary _ left right => right.constants ++ left.constants
  | .print operand => operand.constants

def instrs : Expr → List Instr
  | .value _ => [.readConstant .u64]
  | .binary op left right => right.instrs ++ left.instrs ++ [.arith op .u64]
  | .print operand => operand.instrs ++ [.print operand.ty]

theorem instrs_binary_append (op : BinOp) (left right : Expr) (rest : List Instr) :
    (binary op left right).instrs ++ rest =
      right.instrs ++ (left.instrs ++ .arith op .u64 :: rest) := by
  simp only [instrs, List.append_assoc, List.singleton_append]

theorem constants_binary_append (op : BinOp) (left right : Expr)
    (constants : List (Word 8)) :
    (binary op left right).constants ++ constants =
      right.constants ++ (left.constants ++ constants) := by
  rw [Expr.constants, List.append_assoc]

theorem instrs_print_append (operand : Expr) (rest : List Instr) :
    (print operand).instrs ++ rest = operand.instrs ++ .print operand.ty :: rest := by
  simp only [instrs, List.append_assoc, List.singleton_append]

end Expr

namespace Program

variable {program : Program}

def append (program : Program) (constants : List (Word 8)) (instrs : List Instr) :
    Program where
  pool := { bytes := program.pool.bytes ++ (constants.flatMap Word.bytes).toArray }
  code := program.code ++ instrs.toArray

@[simp] theorem append_nil : program.append [] [] = program := by
  simp [append]

theorem append_append (constants moreConstants : List (Word 8))
    (instrs moreInstrs : List Instr) :
    (program.append constants instrs).append moreConstants moreInstrs =
      program.append (constants ++ moreConstants) (instrs ++ moreInstrs) := by
  simp [append]

theorem addConstant_eq (constant : Word 8) :
    program.addConstant constant = program.append [constant] [] := by
  have bytes : program.pool.bytes ++ Word.bytes constant =
      program.pool.bytes ++ (Word.bytes constant).toArray := Array.ext' (by simp)
  simp [addConstant, append, ConstantPool.push, bytes]

theorem addInstr_eq (instr : Instr) :
    program.addInstr instr = program.append [] [instr] := by
  simp [addInstr, append]

theorem truncate_append (constants : List (Word 8)) (instrs : List Instr) :
    (program.append constants instrs).truncate program.pool.length program.code.size =
      program := by
  simp [truncate, append, ConstantPool.truncate, ConstantPool.length]

end Program

namespace Expr

variable {expr left right : Expr} {op : BinOp} {ty : Ty} {error : TypeError}

theorem emit_binary (leftTy : left.ty = ty) (rightTy : right.ty = ty) :
    (binary op left right).emit = (do
      right.emit
      left.emit
      let instr ← MonadExcept.ofExcept (Instr.specialize op ty)
      modify (·.addInstr instr)) := by
  have common : commonTy op left right = .ok ty :=
    commonTy_eq_ok_iff.mpr ⟨leftTy, rightTy⟩
  rw [emit, common]
  rfl

theorem HasTy.emit_eq (typed : expr.HasTy ty) (program : Program) :
    expr.emit program = .ok () (program.append expr.constants expr.instrs) := by
  induction typed generalizing program with
  | value number =>
      change EStateM.Result.ok () ((program.addConstant number).addInstr _) = _
      rw [Program.addConstant_eq, Program.addInstr_eq, Program.append_append]
      rfl
  | @binary op left right leftTyped rightTyped leftEmits rightEmits =>
      rw [emit_binary leftTyped.ty_eq rightTyped.ty_eq,
        EStateM.bind_of_ok (rightEmits program), EStateM.bind_of_ok (leftEmits _)]
      change EStateM.Result.ok () (Program.addInstr _ (.arith op .u64)) = _
      rw [Program.addInstr_eq, Program.append_append, Program.append_append,
        List.append_nil, constants, instrs, List.append_assoc]
  | @print operand operandTy operandTyped operandEmits =>
      rw [emit, EStateM.bind_of_ok (operandEmits program)]
      change EStateM.Result.ok () (Program.addInstr _ (.print operand.ty)) = _
      rw [Program.addInstr_eq, Program.append_append, List.append_nil]
      rfl

theorem emit_of_check_error (refused : expr.check = .error error) (program : Program) :
    ∃ constants instrs,
      expr.emit program = .error error (program.append constants instrs) := by
  induction expr generalizing program error with
  | value number => cases refused
  | binary op left right leftEmits rightEmits =>
      rcases check_binary_eq_error_iff.mp refused with
        ⟨differ, rfl⟩ | ⟨agree, rightRefused⟩ | ⟨agree, ⟨_, rightTyped⟩, leftRefused⟩ |
          ⟨leftTyped, rightTyped, rfl⟩
      · refine ⟨[], [], ?_⟩
        rw [emit, commonTy_eq_error_iff.mpr ⟨differ, rfl⟩, Program.append_nil]
        rfl
      · rcases rightEmits rightRefused program with ⟨constants, instrs, emitted⟩
        refine ⟨constants, instrs, ?_⟩
        rw [emit_binary agree rfl, EStateM.bind_of_error emitted]
      · rcases leftEmits leftRefused (program.append right.constants right.instrs) with
          ⟨constants, instrs, emitted⟩
        refine ⟨right.constants ++ constants, right.instrs ++ instrs, ?_⟩
        rw [emit_binary agree rfl, EStateM.bind_of_ok (rightTyped.emit_eq program),
          EStateM.bind_of_error emitted, Program.append_append]
      · refine ⟨right.constants ++ left.constants, right.instrs ++ left.instrs, ?_⟩
        rw [emit_binary leftTyped.ty_eq rightTyped.ty_eq,
          EStateM.bind_of_ok (rightTyped.emit_eq program),
          EStateM.bind_of_ok (leftTyped.emit_eq _), Program.append_append]
        rfl
  | print operand operandEmits =>
      rcases operandEmits (check_print_eq_error_iff.mp refused) program with
        ⟨constants, instrs, emitted⟩
      refine ⟨constants, instrs, ?_⟩
      rw [emit, EStateM.bind_of_error emitted]

end Expr

namespace Program

variable {expr : Expr} {ty : Ty} {error : TypeError}

theorem extend_of_hasTy (typed : expr.HasTy ty) (program : Program) :
    extend expr program = .ok () (program.append expr.constants expr.instrs) := by
  simp only [extend, typed.emit_eq program]

theorem extend_of_check_error (refused : expr.check = .error error) (program : Program) :
    extend expr program = .error error program := by
  rcases Expr.emit_of_check_error refused program with ⟨constants, instrs, emitted⟩
  simp only [extend, emitted, truncate_append]

end Program

namespace Expr

variable {expr : Expr} {ty : Ty} {error : TypeError}

theorem HasTy.compile_eq (typed : expr.HasTy ty) :
    expr.compile = .ok (({} : Program).append expr.constants expr.instrs) := by
  simp only [compile, Program.extend_of_hasTy typed]

theorem compile_of_check_error (refused : expr.check = .error error) :
    expr.compile = .error error := by
  simp only [compile, Program.extend_of_check_error refused]

theorem compile_eq_ok_iff {program : Program} :
    expr.compile = .ok program ↔
      expr.HasTy expr.ty ∧
        program = ({} : Program).append expr.constants expr.instrs := by
  constructor
  · intro compiled
    cases checked : expr.check with
    | error error =>
        rw [compile_of_check_error checked] at compiled
        cases compiled
    | ok ty =>
        have typed := HasTy.of_check checked
        rw [typed.compile_eq] at compiled
        cases compiled
        rw [typed.ty_eq]
        exact ⟨typed, rfl⟩
  · rintro ⟨typed, rfl⟩
    exact typed.compile_eq

end Expr

/-! ## Sequences of expressions -/

namespace Program

/-- Those of the expressions by which the program was extended, when they were offered
to it in turn. -/
def accepted (exprs : List Expr) (program : Program) : List Expr :=
  (exprs.zip (extendAll exprs program)).filterMap fun
    | (expr, .ok _, _) => some expr
    | (_, .error _, _) => none

def extendedBy (exprs : List Expr) (program : Program) : Program :=
  ((extendAll exprs program).getLast?.map (·.2)).getD program

theorem ofExprs_eq_extendedBy (exprs : List Expr) :
    ofExprs exprs = extendedBy exprs {} := by
  rw [ofExprs, extendedBy]
  cases (extendAll exprs {}).getLast? <;> rfl

section

variable {expr : Expr} {ty : Ty} {error : TypeError}
variable (exprs : List Expr) (program : Program)

theorem accepted_cons_of_hasTy (typed : expr.HasTy ty) :
    accepted (expr :: exprs) program =
      expr :: accepted exprs (program.append expr.constants expr.instrs) := by
  simp [accepted, extendAll, session, extend_of_hasTy typed, outcome]

theorem accepted_cons_of_check_error (refused : expr.check = .error error) :
    accepted (expr :: exprs) program = accepted exprs program := by
  simp [accepted, extendAll, session, extend_of_check_error refused, outcome]

theorem extendedBy_cons (expr : Expr) :
    extendedBy (expr :: exprs) program =
      extendedBy exprs (outcome (extend expr program)).2 := by
  rw [extendedBy, extendedBy, extendAll, session, List.getLast?_cons]
  cases last : (session extend (fun extended => extended) exprs
    (outcome (extend expr program)).2).getLast? <;> simp [extendAll, last]

theorem extendedBy_eq :
    extendedBy exprs program =
      program.append ((accepted exprs program).flatMap Expr.constants)
        ((accepted exprs program).flatMap Expr.instrs) := by
  induction exprs generalizing program with
  | nil => exact append_nil.symm
  | cons expr exprs induction =>
      rw [extendedBy_cons]
      cases checked : expr.check with
      | error error =>
          rw [extend_of_check_error checked,
            accepted_cons_of_check_error exprs program checked]
          exact induction program
      | ok ty =>
          have typed := Expr.HasTy.of_check checked
          rw [extend_of_hasTy typed, accepted_cons_of_hasTy exprs program typed]
          simp only [List.flatMap_cons, ← append_append]
          exact induction (program.append expr.constants expr.instrs)

theorem hasTy_of_mem_accepted {expr : Expr} (member : expr ∈ accepted exprs program) :
    expr.HasTy expr.ty := by
  induction exprs generalizing program with
  | nil => cases member
  | cons first exprs induction =>
      cases checked : first.check with
      | error error =>
          rw [accepted_cons_of_check_error exprs program checked] at member
          exact induction program member
      | ok ty =>
          have typed := Expr.HasTy.of_check checked
          rw [accepted_cons_of_hasTy exprs program typed] at member
          rcases List.mem_cons.mp member with equal | member
          · subst expr
            rw [typed.ty_eq]
            exact typed
          · exact induction _ member

end

end Program

end ExprMachine

import ExprMachine.Proofs.Expr.StackNeed
import ExprMachine.Proofs.Lines
import ExprMachine.Proofs.Sink

/-! # What an evaluation prints

An evaluation that succeeds has printed one line for each print in the expression. The
lines have no newline inside, and each character of them takes up one byte. -/

namespace ExprMachine

namespace Expr

def prints : Expr → Nat
  | .value _ => 0
  | .binary _ left right => left.prints + right.prints
  | .print operand => operand.prints + 1

variable {expr : Expr} {value : Option (Word 8)} {text : String} {after : Sink}

/-- Digits and letters, and among the characters between them no newline. -/
theorem toNat_of_mem_line {outcome : Option (Word 8)} {char : Char}
    (member : char ∈ (line outcome).toList) :
    '0'.toNat ≤ char.toNat ∧ char.toNat ≤ 'z'.toNat := by
  cases outcome with
  | none =>
      have letter : char ∈ ['n', 'o', 'n', 'e'] := member
      simp only [List.mem_cons, List.not_mem_nil, or_false] at letter
      rcases letter with rfl | rfl | rfl | rfl <;> decide
  | some number =>
      rw [line] at member
      have digit := isDigit_of_mem_toString member
      rcases Char.isDigit_iff_toNat.mp digit with ⟨least, greatest⟩
      exact ⟨least, Nat.le_trans greatest (by decide)⟩

theorem not_mem_line (outcome : Option (Word 8)) : '\n' ∉ (line outcome).toList := by
  intro member
  have impossible := (toNat_of_mem_line member).1
  revert impossible
  decide

theorem exists_outcomes_of_evaluate (evaluated : expr.evaluate { text } = .ok value after) :
    ∃ outcomes : List (Option (Word 8)), outcomes.length = expr.prints ∧
      after = { text := text ++ unlines (outcomes.map line) } := by
  induction expr generalizing text value after with
  | value number =>
      cases evaluated
      refine ⟨[], rfl, ?_⟩
      rw [List.map_nil, unlines, List.map_nil, String.join_nil, String.append_empty]
  | binary op left right leftPrints rightPrints =>
      simp only [evaluate_binary, EStateM.bind_eq_ok_iff] at evaluated
      rcases evaluated with ⟨_, _, rightEvaluated, _, _, leftEvaluated, combined⟩
      rcases BinOp.exists_of_combine_eq_ok combined with ⟨_, _, _, -, -, -, -, rfl⟩
      rcases rightPrints rightEvaluated with ⟨rightOutcomes, rightLength, rfl⟩
      rcases leftPrints leftEvaluated with ⟨leftOutcomes, leftLength, rfl⟩
      refine ⟨rightOutcomes ++ leftOutcomes, ?_, ?_⟩
      · rw [List.length_append, rightLength, leftLength, prints, Nat.add_comm]
      · rw [List.map_append, unlines_append, String.append_assoc]
  | print operand operandPrints =>
      simp only [evaluate_print, EStateM.bind_eq_ok_iff] at evaluated
      rcases evaluated with ⟨outcome, _, operandEvaluated, _, _, written, same⟩
      cases same
      rcases operandPrints operandEvaluated with ⟨outcomes, length, rfl⟩
      cases written
      refine ⟨outcomes ++ [outcome], ?_, ?_⟩
      · rw [List.length_append, length, List.length_singleton, prints]
      · rw [List.map_append, unlines_append, List.map_singleton, unlines_singleton,
          String.append_assoc]

/-! ## Bytes and characters -/

theorem utf8Size_of_mem_line {outcome : Option (Word 8)} {char : Char}
    (member : char ∈ (line outcome).toList) : char.utf8Size = 1 := by
  rw [Char.utf8Size_eq_one_iff, UInt32.le_iff_toNat_le]
  exact Nat.le_trans (toNat_of_mem_line member).2 (by decide)

theorem utf8ByteSize_eq_length {text : String}
    (small : ∀ char ∈ text.toList, char.utf8Size = 1) : text.utf8ByteSize = text.length := by
  have size := String.utf8ByteSize_ofList text.toList
  rw [String.ofList_toList] at size
  rw [size, ← String.length_toList]
  generalize text.toList = chars at small
  induction chars with
  | nil => rfl
  | cons char chars induction =>
      rcases List.forall_mem_cons.mp small with ⟨first, others⟩
      rw [String.utf8Len_cons, first, induction others, List.length_cons]

theorem utf8ByteSize_unlines (outcomes : List (Option (Word 8))) :
    (unlines (outcomes.map line)).utf8ByteSize = (unlines (outcomes.map line)).length := by
  apply utf8ByteSize_eq_length
  intro char member
  rcases mem_unlines_iff.mp member with ⟨_, isLine, inside | rfl⟩
  · rcases List.mem_map.mp isLine with ⟨outcome, -, rfl⟩
    exact utf8Size_of_mem_line inside
  · rfl

/-! ## Evaluations that may fail -/

theorem exists_prints_combine (op : BinOp) (left right : Option (Word 8)) :
    ∃ printed answer, Sink.Prints (op.combine left right) printed answer := by
  cases left with
  | none => exact ⟨_, _, Sink.prints_throw (.stuck op)⟩
  | some left =>
      cases right with
      | none => exact ⟨_, _, Sink.prints_throw (.stuck op)⟩
      | some right =>
          rw [BinOp.combine]
          cases op.apply left right with
          | error fault => exact ⟨_, _, Sink.prints_throw fault⟩
          | ok result => exact ⟨_, _, Sink.prints_pure (some result)⟩

theorem exists_prints_evaluateWithin (expr : Expr) (capacity depth : Nat) :
    ∃ printed answer, Sink.Prints (expr.evaluateWithin capacity depth) printed answer := by
  induction expr generalizing depth with
  | value number =>
      rw [evaluateWithin]
      split
      · exact ⟨_, _, Sink.prints_pure (some number)⟩
      · exact ⟨_, _, Sink.prints_throw (Fault.full capacity)⟩
  | binary op left right leftPrints rightPrints =>
      rw [evaluateWithin]
      apply Sink.exists_prints_bind (rightPrints depth)
      intro right
      apply Sink.exists_prints_bind (leftPrints (depth + 1))
      intro left
      exact exists_prints_combine op left right
  | print operand operandPrints =>
      rw [evaluateWithin]
      apply Sink.exists_prints_bind (operandPrints depth)
      intro outcome
      apply Sink.exists_prints_bind ⟨_, _, Sink.prints_writeLine (line outcome)⟩
      intro _
      exact ⟨_, _, Sink.prints_pure none⟩

theorem exists_prints_evaluate (expr : Expr) :
    ∃ printed answer, Sink.Prints expr.evaluate printed answer := by
  have enough : 0 + expr.need ≤ 8 * expr.need / 8 := by omega
  rw [← evaluateWithin_of_fits enough]
  exact exists_prints_evaluateWithin expr (8 * expr.need) 0

end Expr

end ExprMachine

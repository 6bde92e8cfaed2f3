import ExprMachine.Proofs.Sequencing
import ExprMachine.Proofs.Word
import ExprMachine.Stack.Script

/-! # The stack as a list of bytes

A stack does with its region and its `sp` what can be done with a list of bytes: pushes
append to it and pops take from its end, in pieces of any size. What an earlier pop has left
in the region has no part in it, nor has a command that failed. -/

namespace ExprMachine.Stack

/-! ## Commands on bytes -/

/-- Carries out a command on bytes, the oldest first, of which there may be `capacity`. -/
def Command.onBytes (capacity : Nat) :
    Command → EStateM Fault (List UInt8) (Option Nat)
  | .push size word, bytes =>
      if bytes.length + size ≤ capacity then
        .ok none (bytes ++ littleEndian size word.toNat)
      else
        .error (.stackOverflow bytes.length size capacity) bytes
  | .pop size, bytes =>
      if size ≤ bytes.length then
        let kept := bytes.length - size
        .ok (some (ofLittleEndian (bytes.drop kept))) (bytes.take kept)
      else
        .error (.stackUnderflow bytes.length size) bytes

theorem Command.run_cases (command : Command) (stack : Stack) :
    (∃ answer after, command.run stack = .ok answer after ∧
        command.onBytes stack.capacity stack.live = .ok answer after.live ∧
        after.capacity = stack.capacity) ∨
      ∃ fault, command.run stack = .error fault stack ∧
        command.onBytes stack.capacity stack.live = .error fault stack.live := by
  cases command with
  | push size word =>
      rw [onBytes, length_live]
      by_cases room : stack.sp + size ≤ stack.capacity
      · left
        rcases push_of_room word room with ⟨after, pushed, live, capacity⟩
        refine ⟨none, after, ?_, ?_, capacity⟩
        · rw [run, EStateM.bind_of_ok pushed]
          rfl
        · rw [if_pos room, live, Word.bytes]
      · right
        have failed := push_of_full word (Nat.not_le.mp room)
        exact ⟨_, EStateM.bind_of_error failed, if_neg room⟩
  | pop size =>
      rw [onBytes, length_live]
      by_cases depth : size ≤ stack.sp
      · left
        have length : (stack.live.drop (stack.sp - size)).length = size := by
          rw [List.length_drop, length_live]
          omega
        rcases pop_of_le depth with ⟨after, popped, live, capacity⟩
        refine ⟨_, after, EStateM.bind_of_ok popped, ?_, capacity⟩
        rw [if_pos depth, live, Word.toNat_ofBytes length]
      · right
        have failed := pop_of_lt (Nat.not_le.mp depth)
        exact ⟨_, EStateM.bind_of_error failed, if_neg depth⟩

/-! ## Sequences of commands -/

def performOnBytes (capacity : Nat) (commands : List Command) (bytes : List UInt8) :
    List (Except Fault (Option Nat) × List UInt8) :=
  session (Command.onBytes capacity) (fun left => left) commands bytes

variable {command : Command} {commands : List Command} {stack after : Stack}

theorem perform_cons_of_ok {answer : Option Nat}
    (ran : command.run stack = .ok answer after) :
    perform (command :: commands) stack = .ok answer :: perform commands after := by
  rw [perform, session_cons_of_ok commands ran]
  rfl

theorem perform_cons_of_error {fault : Fault}
    (failed : command.run stack = .error fault after) :
    perform (command :: commands) stack = .error fault :: perform commands after := by
  rw [perform, session_cons_of_error commands failed]
  rfl

theorem session_live_eq (commands : List Command) (stack : Stack) :
    session Command.run live commands stack =
      performOnBytes stack.capacity commands stack.live := by
  induction commands generalizing stack with
  | nil => rfl
  | cons command commands induction =>
      rw [performOnBytes]
      rcases command.run_cases stack with
        ⟨answer, after, ran, onBytes, capacity⟩ | ⟨fault, failed, onBytes⟩
      · rw [session_cons_of_ok commands ran, session_cons_of_ok commands onBytes,
          induction after, capacity, performOnBytes]
      · rw [session_cons_of_error commands failed, session_cons_of_error commands onBytes,
          induction stack, performOnBytes]

/-- The live bytes and the capacity decide about every answer. -/
theorem perform_eq (commands : List Command) (stack : Stack) :
    perform commands stack =
      (performOnBytes stack.capacity commands stack.live).map (·.1) := by
  rw [perform, map_fst_session Command.run _ live, session_live_eq]

/-- Without the command that fails, its answer is missing and nothing else is different. -/
theorem perform_of_failed {before : List Command} {fault : Fault}
    (failed : (perform (before ++ command :: commands) stack)[before.length]? =
      some (.error fault)) :
    perform (before ++ commands) stack =
      (perform (before ++ command :: commands) stack).eraseIdx before.length := by
  induction before generalizing stack with
  | nil =>
      rw [List.nil_append, List.nil_append] at *
      rcases command.run_cases stack with ⟨answer, after, ran, -⟩ | ⟨_, ran, -⟩
      · rw [perform_cons_of_ok ran] at failed
        cases failed
      · rw [perform_cons_of_error ran]
        rfl
  | cons first before induction =>
      rw [List.cons_append, List.cons_append] at *
      cases ran : first.run stack with
      | ok answer after =>
          rw [perform_cons_of_ok ran] at failed
          rw [perform_cons_of_ok ran, perform_cons_of_ok ran, List.length_cons,
            List.eraseIdx_cons_succ, induction failed]
      | error fault after =>
          rw [perform_cons_of_error ran] at failed
          rw [perform_cons_of_error ran, perform_cons_of_error ran, List.length_cons,
            List.eraseIdx_cons_succ, induction failed]

/-! ## A new stack -/

theorem exists_empty_of_allocatable {memory capacity : Nat}
    (allocatable : capacity ≤ memory) :
    ∃ stack, allocate memory capacity = .ok stack ∧ stack.live = [] ∧
      stack.capacity = capacity :=
  ⟨_, if_pos allocatable, rfl, Region.size_zeroed capacity⟩

/-- A new stack is an empty list of bytes. It answers to pushes and pops of any sizes as the
list does and keeps the bytes that the list keeps. A command that failed could as well have
been left out, and the bytes above `sp` could have been any others. -/
theorem allocate_refines_bytes {memory capacity : Nat} (allocatable : capacity ≤ memory) :
    ∃ stack, allocate memory capacity = .ok stack ∧
      (∀ commands,
        session Command.run live commands stack = performOnBytes capacity commands [] ∧
        perform commands stack = (performOnBytes capacity commands []).map (·.1)) ∧
      (∀ before command commands fault,
        (perform (before ++ command :: commands) stack)[before.length]? =
            some (.error fault) →
        perform (before ++ commands) stack =
          (perform (before ++ command :: commands) stack).eraseIdx before.length) ∧
      ∀ commands (first second : Stack),
        first.live = second.live → first.capacity = second.capacity →
        perform commands first = perform commands second := by
  rcases exists_empty_of_allocatable allocatable with ⟨stack, allocated, empty, rfl⟩
  refine ⟨stack, allocated, fun commands => ?_, fun _ _ _ _ => perform_of_failed, ?_⟩
  · rw [perform_eq, session_live_eq, empty]
    exact ⟨rfl, rfl⟩
  · intro commands first second live capacity
    rw [perform_eq, perform_eq, live, capacity]

/-- A pop of three bytes takes one and a half of the words pushed. A byte is pushed later on
where they still lie, and the overflow and the underflow before that leave no trace. -/
theorem allocate_refines_bytes_mixed_sizes :
    let before := [.push 2 0x0201#16, .push 2 0x0403#16, .pop 3]
    let after := [.pop 2, .push 1 0xff#8, .pop 2]
    ∃ stack, allocate 5 5 = .ok stack ∧
      perform (before ++ .push 8 0#64 :: after) stack =
        [.ok none, .ok none, .ok (some 0x040302), .error (.stackOverflow 1 8 5),
          .error (.stackUnderflow 1 2), .ok none, .ok (some 0xff01)] ∧
      perform (before ++ after) stack =
        [.ok none, .ok none, .ok (some 0x040302),
          .error (.stackUnderflow 1 2), .ok none, .ok (some 0xff01)] ∧
      perform after ⟨#[1, 2, 3, 4, 0], 1, by decide⟩ =
        perform after ⟨#[1, 0, 0, 0, 0], 1, by decide⟩ := by
  intro before after
  rcases allocate_refines_bytes (Nat.le_refl 5) with
    ⟨stack, allocated, refines, without_failed, live_decides⟩
  have answers := (refines (before ++ .push 8 0#64 :: after)).2
  have failed := without_failed before (.push 8 0#64) after (.stackOverflow 1 8 5)
    (by rw [answers]; rfl)
  refine ⟨stack, allocated, answers, ?_, live_decides after _ _ rfl rfl⟩
  rw [failed, answers]
  rfl

end ExprMachine.Stack

import ExprMachine.Proofs.WordMachine.Basic
import Mathlib.Data.List.Induction

/-! # What can be counted

How many constants have been read and how many words lie on the stack when an
instruction is about to run is known from the instructions before it. These counts tell
whether there is a constant, room or operands for it, whatever the constants are. -/

namespace ExprMachine

namespace Instr

def isRead : Instr → Bool
  | .readConstant _ => true
  | .arith _ _ | .print _ => false

def drops : Instr → Bool
  | .arith _ _ | .print .u64 => true
  | .readConstant _ | .print .none => false

/-- By how many words the stack grows. -/
def effect : Instr → Int
  | .readConstant _ => 1
  | .arith _ _ | .print .u64 => -1
  | .print .none => 0

theorem effect_eq (instr : Instr) :
    instr.effect = (instr.isRead.toNat : Int) - instr.drops.toNat := by
  cases instr with
  | readConstant scalar => rfl
  | arith op scalar => rfl
  | print ty => cases ty <;> rfl

/-- The fault of an instruction that comes after `reads` reads and stands above `depth`
words. A constant is looked for before there is any need for room. -/
def fault? (bounds : WordMachine.Bounds) (reads : Nat) (depth : Int) :
    Instr → Option Fault
  | .readConstant _ =>
      if bounds.poolLength < 8 * (reads + 1) then
        some (.corruptPool (8 * reads) 8 bounds.poolLength)
      else if bounds.capacity < 8 * (depth + 1) then
        some (.stackOverflow (8 * depth).toNat 8 bounds.capacity)
      else
        none
  | .arith _ _ => if depth < 2 then some (.stackUnderflow 0 8) else none
  | .print .u64 => if depth < 1 then some (.stackUnderflow 0 8) else none
  | .print .none => none

theorem eq_readConstant_of_fault?_eq_overflow {bounds : WordMachine.Bounds} {reads : Nat}
    {depth : Int} {instr : Instr} {sp size capacity : Nat}
    (overflows : instr.fault? bounds reads depth = some (.stackOverflow sp size capacity)) :
    instr = .readConstant .u64 ∧ sp = (8 * depth).toNat := by
  cases instr with
  | readConstant scalar =>
      rw [fault?] at overflows
      split at overflows
      · cases overflows
      · split at overflows
        · cases overflows
          exact ⟨rfl, rfl⟩
        · cases overflows
  | arith op scalar =>
      rw [fault?] at overflows
      split at overflows <;> cases overflows
  | print ty =>
      cases ty with
      | none => cases overflows
      | u64 =>
          rw [fault?] at overflows
          split at overflows <;> cases overflows

theorem counts_of_fault?_eq_none {bounds : WordMachine.Bounds} {reads : Nat} {depth : Int}
    {instr : Instr} (fits : instr.fault? bounds reads depth = none) (nonneg : 0 ≤ depth)
    (room : 8 * depth ≤ bounds.capacity) (constants : 8 * reads ≤ bounds.poolLength) :
    0 ≤ depth + instr.effect ∧ 8 * (depth + instr.effect) ≤ bounds.capacity ∧
      8 * (reads + instr.isRead.toNat) ≤ bounds.poolLength := by
  cases instr with
  | readConstant scalar =>
      simp only [fault?] at fits
      split at fits
      · cases fits
      · split at fits
        · cases fits
        · simp only [effect, isRead, Bool.toNat_true]
          omega
  | arith op scalar =>
      simp only [fault?] at fits
      split at fits
      · cases fits
      · simp only [effect, isRead, Bool.toNat_false]
        omega
  | print ty =>
      cases ty with
      | none =>
          simp only [effect, isRead, Bool.toNat_false]
          omega
      | u64 =>
          simp only [fault?] at fits
          split at fits
          · cases fits
          · simp only [effect, isRead, Bool.toNat_false]
            omega

end Instr

namespace Code

variable {bounds : WordMachine.Bounds} {code first : List Instr} {instr : Instr}
variable {index : Nat}

def reads (code : List Instr) : Nat :=
  code.countP Instr.isRead

def depth (code : List Instr) : Int :=
  reads code - code.countP Instr.drops

def fault? (bounds : WordMachine.Bounds) (code : List Instr) (index : Nat) :
    Option Fault :=
  code[index]?.bind
    (Instr.fault? bounds (reads (code.take index)) (depth (code.take index)))

@[simp] theorem reads_nil : reads [] = 0 := rfl

@[simp] theorem depth_nil : depth [] = 0 := rfl

theorem reads_cons (instr : Instr) (code : List Instr) :
    reads (instr :: code) = instr.isRead.toNat + reads code := by
  rw [reads, List.countP_cons, reads, Nat.add_comm]
  cases instr.isRead <;> rfl

theorem reads_append (first second : List Instr) :
    reads (first ++ second) = reads first + reads second :=
  List.countP_append

theorem reads_concat (code : List Instr) (instr : Instr) :
    reads (code ++ [instr]) = reads code + instr.isRead.toNat := by
  rw [reads_append, reads_cons, reads_nil, Nat.add_zero]

theorem depth_append (first second : List Instr) :
    depth (first ++ second) = depth first + depth second := by
  rw [depth, depth, depth, reads_append, List.countP_append]
  omega

theorem depth_concat (code : List Instr) (instr : Instr) :
    depth (code ++ [instr]) = depth code + instr.effect := by
  have single : depth [instr] = instr.effect := by
    rw [depth, reads_cons, reads_nil, Instr.effect_eq, List.countP_singleton]
    cases instr.drops <;> rfl
  rw [depth_append, single]

theorem fault?_append_of_lt (inside : index < first.length) (rest : List Instr) :
    fault? bounds (first ++ rest) index = fault? bounds first index := by
  rw [fault?, fault?, List.getElem?_append_left inside,
    List.take_append_of_le_length (Nat.le_of_lt inside)]

theorem fault?_append_cons (first : List Instr) (instr : Instr) (rest : List Instr) :
    fault? bounds (first ++ instr :: rest) first.length =
      instr.fault? bounds (reads first) (depth first) := by
  rw [fault?, List.getElem?_append_right (Nat.le_refl _), Nat.sub_self,
    List.getElem?_cons_zero, List.take_left]
  rfl

/-! ## Code without faults -/

/-- No instruction is at fault. -/
def Sound (bounds : WordMachine.Bounds) (code : List Instr) : Prop :=
  ∀ index < code.length, fault? bounds code index = none

theorem sound_concat_iff :
    Sound bounds (code ++ [instr]) ↔
      Sound bounds code ∧ instr.fault? bounds (reads code) (depth code) = none := by
  constructor
  · intro sound
    refine ⟨fun index inside => ?_, ?_⟩
    · rw [← fault?_append_of_lt inside [instr]]
      exact sound index (by rw [List.length_append]; omega)
    · rw [← fault?_append_cons code instr []]
      exact sound code.length (by simp)
  · rintro ⟨sound, last⟩ index inside
    rw [List.length_append, List.length_singleton] at inside
    by_cases before : index < code.length
    · rw [fault?_append_of_lt before]
      exact sound index before
    · have atEnd : index = code.length := by omega
      subst atEnd
      rw [fault?_append_cons]
      exact last

theorem Sound.take (sound : Sound bounds code) (count : Nat) :
    Sound bounds (code.take count) := by
  intro index inside
  rw [← fault?_append_of_lt inside (code.drop count), List.take_append_drop]
  exact sound index (Nat.lt_of_lt_of_le inside (List.length_take_le' count code))

theorem Sound.counts (sound : Sound bounds code) :
    0 ≤ depth code ∧ 8 * depth code ≤ bounds.capacity ∧
      8 * reads code ≤ bounds.poolLength := by
  -- An instruction is judged by the counts before it, so the code is taken apart at its end.
  induction code using List.reverseRecOn with
  | nil => simp
  | append_singleton code instr induction =>
      rcases sound_concat_iff.mp sound with ⟨before, last⟩
      rcases induction before with ⟨nonneg, room, constants⟩
      rw [depth_concat, reads_concat]
      exact Instr.counts_of_fault?_eq_none last nonneg room constants

/-- After sound code a fault is about the stack when it is full, about the stack when it is
too short, or about the pool when every whole word of it has been read. -/
theorem Sound.fault?_eq_some {fault : Fault} (sound : Sound bounds code)
    (foreseen : instr.fault? bounds (reads code) (depth code) = some fault) :
    fault = Fault.full bounds.capacity ∨ fault = .stackUnderflow 0 8 ∨
      fault = Fault.exhausted bounds.poolLength := by
  rcases sound.counts with ⟨nonneg, room, constants⟩
  cases instr with
  | readConstant scalar =>
      rw [Instr.fault?] at foreseen
      split at foreseen
      · have last : reads code = bounds.poolLength / 8 := by omega
        cases foreseen
        rw [last]
        exact .inr (.inr rfl)
      · split at foreseen
        · have top : (8 * depth code).toNat = 8 * (bounds.capacity / 8) := by omega
          cases foreseen
          rw [top]
          exact .inl rfl
        · cases foreseen
  | arith op scalar =>
      rw [Instr.fault?] at foreseen
      split at foreseen
      · cases foreseen
        exact .inr (.inl rfl)
      · cases foreseen
  | print ty =>
      cases ty with
      | none => cases foreseen
      | u64 =>
          rw [Instr.fault?] at foreseen
          split at foreseen
          · cases foreseen
            exact .inr (.inl rfl)
          · cases foreseen

end Code

end ExprMachine

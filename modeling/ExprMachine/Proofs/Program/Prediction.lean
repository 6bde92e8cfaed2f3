import ExprMachine.Proofs.Program.Refinement

/-! # Faults that are foreseen

Which instruction is the first to lack a constant, room or operands is known before a
program runs, from its code, the length of its pool and the size of the stack. A run
with an unlimited sink ends there, or at a division by zero before. The constants
themselves decide about nothing but that division. -/

namespace ExprMachine

namespace Code

variable {bounds : WordMachine.Bounds} {code first : List Instr} {instr : Instr}
variable {fault : Fault} {index : Nat}

def firstFaulty (bounds : WordMachine.Bounds) (code : List Instr) : Option Nat :=
  (List.range code.length).find? fun index => (fault? bounds code index).isSome

/-- The end of a run that divides by no zero before the first fault. -/
def foreseen (bounds : WordMachine.Bounds) (code : List Instr) : Except Fault Unit :=
  match (firstFaulty bounds code).bind (fault? bounds code) with
  | some fault => .error fault
  | none => .ok ()

theorem firstFaulty_eq_none_iff : firstFaulty bounds code = none ↔ Sound bounds code := by
  simp [firstFaulty, Sound]

theorem firstFaulty_eq_some_iff :
    firstFaulty bounds code = some index ↔
      index < code.length ∧ (∃ fault, fault? bounds code index = some fault) ∧
        ∀ earlier < index, fault? bounds code earlier = none := by
  rw [firstFaulty, List.find?_range_eq_some, List.mem_range, Option.isSome_iff_exists]
  simp only [Bool.not_eq_true', Option.isSome_eq_false_iff, Option.isNone_iff_eq_none]
  exact and_left_comm

theorem foreseen_of_sound (sound : Sound bounds code) : foreseen bounds code = .ok () := by
  rw [foreseen, firstFaulty_eq_none_iff.mpr sound]
  rfl

theorem foreseen_append_cons (sound : Sound bounds first)
    (faulty : instr.fault? bounds (reads first) (depth first) = some fault)
    (rest : List Instr) : foreseen bounds (first ++ instr :: rest) = .error fault := by
  have found : fault? bounds (first ++ instr :: rest) first.length = some fault :=
    (fault?_append_cons first instr rest).trans faulty
  have isFirst : firstFaulty bounds (first ++ instr :: rest) = some first.length := by
    refine firstFaulty_eq_some_iff.mpr ⟨by simp, ⟨fault, found⟩, fun earlier before => ?_⟩
    rw [fault?_append_of_lt before]
    exact sound earlier before
  rw [foreseen, isFirst, Option.bind_some, found]

theorem length_le_of_mem_firstFaulty (sound : Sound bounds first) (rest : List Instr)
    (member : index ∈ firstFaulty bounds (first ++ rest)) : first.length ≤ index := by
  rcases (firstFaulty_eq_some_iff.mp member) with ⟨-, ⟨fault, found⟩, -⟩
  apply Nat.le_of_not_lt
  intro before
  rw [fault?_append_of_lt before, sound index before] at found
  cases found

end Code

namespace Program

variable {resources : Resources}

/-- A division by zero ends the run, and no instruction up to the division is at fault. -/
def DividesFirst (program : Program) (resources : Resources) (effects : Effects) : Prop :=
  ∃ after index sp,
    program.run resources effects = .error .divisionByZero after ∧
      program.code.toList[index]? = some (.arith .div .u64) ∧
      after.events.back? = some (.exec index (.arith .div .u64) sp) ∧
      ∀ faulty ∈ Code.firstFaulty (program.bounds resources) program.code.toList,
        index < faulty

theorem run_foreseen_or_dividesFirst (allocatable : resources.stackSize ≤ resources.memory)
    (program : Program) {effects : Effects} (unlimited : effects.sink.room = none) :
    (outcome (program.run resources effects)).1 =
        Code.foreseen (program.bounds resources) program.code.toList ∨
      program.DividesFirst resources effects := by
  cases run : WordMachine.runFrom (program.bounds resources) 0 program.code.toList
      (program.start effects) with
  | ok _ state =>
      left
      rw [run_of_runFrom_ok allocatable run,
        Code.foreseen_of_sound (reached_of_runFrom run).sound]
      rfl
  | error fault last =>
      rcases exists_of_runFrom_eq_error run with
        ⟨ran, instr, unrun, reached, split, before, failed⟩
      have atFault := reached_of_runFrom before
      have result := failed ▸ atFault.execute instr
      have ended := run_of_runFrom_error allocatable run
      cases result with
      | foreseen foreseen =>
          left
          rw [ended, split, Code.foreseen_append_cons atFault.sound foreseen]
          rfl
      | output limited => exact absurd (atFault.room unlimited) limited
      | @division scalar _ divides fits =>
          right
          cases scalar
          subst divides
          refine ⟨last.effects, ran.length, (8 * Code.depth ran).toNat, ended, ?_, ?_, ?_⟩
          · rw [split, List.getElem?_append_right (Nat.le_refl _), Nat.sub_self,
              List.getElem?_cons_zero]
          · have events := atFault.events_execute (.arith .div .u64)
            rw [failed, WordMachine.announcements_concat, ← List.append_assoc] at events
            rw [← Array.getLast?_toList]
            exact events ▸ List.getLast?_concat
          · intro faulty member
            -- Up to the division nothing is at fault, so the first fault comes after it.
            have sound := Code.sound_concat_iff.mpr ⟨atFault.sound, fits⟩
            rw [split, List.append_cons] at member
            have after := Code.length_le_of_mem_firstFaulty sound unrun member
            rwa [List.length_append] at after

theorem run_foreseen_of_no_division (allocatable : resources.stackSize ≤ resources.memory)
    {program : Program} (noDivision : .arith .div .u64 ∉ program.code.toList)
    {effects : Effects} (unlimited : effects.sink.room = none) :
    (outcome (program.run resources effects)).1 =
      Code.foreseen (program.bounds resources) program.code.toList := by
  rcases run_foreseen_or_dividesFirst allocatable program unlimited with
    foreseen | ⟨_, _, _, _, divides, _⟩
  · exact foreseen
  · exact absurd (List.mem_of_getElem? divides) noDivision

/-- Without divisions the constants make no difference to how a run ends. -/
theorem run_data_independent (allocatable : resources.stackSize ≤ resources.memory) :
    (∀ (program : Program) (effects : Effects), effects.sink.room = none →
      (outcome (program.run resources effects)).1 =
          Code.foreseen (program.bounds resources) program.code.toList ∨
        program.DividesFirst resources effects) ∧
    ∀ (program other : Program) (effects otherEffects : Effects),
      program.code = other.code → program.pool.length = other.pool.length →
        .arith .div .u64 ∉ program.code.toList →
          effects.sink.room = none → otherEffects.sink.room = none →
            (outcome (program.run resources effects)).1 =
              (outcome (other.run resources otherEffects)).1 := by
  constructor
  · intro program effects unlimited
    exact run_foreseen_or_dividesFirst allocatable program unlimited
  · intro program other effects otherEffects sameCode sameLength noDivision unlimited
      otherUnlimited
    have otherNoDivision := sameCode ▸ noDivision
    rw [run_foreseen_of_no_division allocatable noDivision unlimited,
      run_foreseen_of_no_division allocatable otherNoDivision otherUnlimited, bounds,
      bounds, sameCode, sameLength]

def operandsForOne (op : BinOp) (left right : Word 8) : Program where
  pool := { bytes := (Word.bytes right ++ Word.bytes left).toArray }
  code := #[.readConstant .u64, .readConstant .u64, .arith op .u64, .arith op .u64]

/-- The first operation divides by zero before the second one is found at fault, or it
does not, and then the fault is the same for all constants. -/
theorem run_data_independent_operandsForOne :
    (operandsForOne .div 6 0).DividesFirst { stackSize := 16 } {} ∧
      (outcome ((operandsForOne .div 6 2).run { stackSize := 16 } {})).1 =
        .error (.stackUnderflow 0 8) ∧
      (outcome ((operandsForOne .sub 6 0).run { stackSize := 16 } {})).1 =
        (outcome ((operandsForOne .sub 1 9).run { stackSize := 16 } {})).1 := by
  have allocatable : Resources.stackSize { stackSize := 16 } ≤ 2 ^ 28 := by decide
  have general := run_data_independent allocatable
  refine ⟨?_, ?_, ?_⟩
  · exact (general.1 (operandsForOne .div 6 0) {} rfl).resolve_left (by decide)
  · rfl
  · exact general.2 (operandsForOne .sub 6 0) (operandsForOne .sub 1 9) {} {} rfl rfl
      (by decide) rfl rfl

end Program

end ExprMachine

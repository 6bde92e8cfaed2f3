import ExprMachine.Proofs.Program.Refinement

/-! # What a run records

The events of a run tell which instructions it carried out, one after another from the
first, and how deep the stack was before each. They stop at the instruction that fails;
only a run that succeeds says that it has finished. -/

namespace ExprMachine

/-- Events of instructions from the first of `code` on. The stack is empty before the
first of them, and between two of them it has moved by the effect of the earlier. -/
structure FollowsCode (code : List Instr) (capacity : Nat) (execs : List Event) :
    Prop where
  numbered : ∀ (pc : Nat) (event : Event), execs[pc]? = some event →
    ∃ instr sp, code[pc]? = some instr ∧ event = .exec pc instr sp ∧
      8 ∣ sp ∧ sp ≤ capacity
  first : ∀ instr sp, execs[0]? = some (.exec 0 instr sp) → sp = 0
  moved : ∀ pc instr (sp : Nat) next (nextSp : Nat), execs[pc]? = some (.exec pc instr sp) →
    execs[pc + 1]? = some (.exec (pc + 1) next nextSp) →
      (nextSp : Int) = sp + 8 * instr.effect

namespace WordMachine

variable {bounds : Bounds} {code executed ran unrun : List Instr} {instr : Instr}
variable {start : Effects} {state : State}

theorem length_announcements (code : List Instr) :
    (announcements code).length = code.length :=
  List.length_mapIdx

theorem getElem?_announcements_eq_some_iff {pc : Nat} {event : Event} :
    (announcements executed)[pc]? = some event ↔
      ∃ instr, executed[pc]? = some instr ∧
        .exec pc instr (8 * Code.depth (executed.take pc)).toNat = event := by
  rw [announcements, List.getElem?_mapIdx, Option.map_eq_some_iff]

theorem exists_eq_exec_of_mem_announcements {event : Event}
    (member : event ∈ announcements executed) : ∃ pc instr sp, event = .exec pc instr sp := by
  rcases List.mem_iff_getElem?.mp member with ⟨pc, announced⟩
  rcases getElem?_announcements_eq_some_iff.mp announced with ⟨instr, -, rfl⟩
  exact ⟨pc, instr, _, rfl⟩

theorem followsCode_announcements (split : code = executed ++ unrun)
    (sound : ∀ pc < executed.length, Code.Sound bounds (executed.take pc)) :
    FollowsCode code bounds.capacity (announcements executed) where
  numbered := by
    intro pc event announced
    rcases getElem?_announcements_eq_some_iff.mp announced with ⟨instr, found, rfl⟩
    have inside : pc < executed.length := (List.getElem?_eq_some_iff.mp found).1
    rcases (sound pc inside).counts with ⟨nonneg, room, -⟩
    refine ⟨instr, _, ?_, rfl, ?_, ?_⟩
    · rw [split, List.getElem?_append_left inside, found]
    · omega
    · omega
  first := by
    intro instr sp announced
    rcases getElem?_announcements_eq_some_iff.mp announced with ⟨_, _, same⟩
    cases same
    rfl
  moved := by
    intro pc instr sp next nextSp announced nextAnnounced
    rcases getElem?_announcements_eq_some_iff.mp announced with ⟨_, found, same⟩
    rcases getElem?_announcements_eq_some_iff.mp nextAnnounced with ⟨_, nextFound, nextSame⟩
    cases same
    cases nextSame
    have inside : pc + 1 < executed.length := (List.getElem?_eq_some_iff.mp nextFound).1
    have nonneg := (sound pc (Nat.lt_of_succ_lt inside)).counts.1
    have nextNonneg := (sound (pc + 1) inside).counts.1
    rw [List.take_add_one, found, Option.toList_some, Code.depth_concat] at nextNonneg ⊢
    omega

theorem Reached.followsCode (reached : Reached bounds start ran state)
    (split : code = ran ++ unrun) :
    FollowsCode code bounds.capacity (announcements ran) :=
  followsCode_announcements split fun pc _ => reached.sound.take pc

theorem Reached.followsCode_concat (reached : Reached bounds start ran state)
    (split : code = ran ++ instr :: unrun) :
    FollowsCode code bounds.capacity (announcements (ran ++ [instr])) := by
  refine followsCode_announcements (split.trans (List.append_cons ..)) ?_
  intro pc early
  rw [List.length_append, List.length_singleton] at early
  rw [List.take_append_of_le_length (Nat.le_of_lt_succ early)]
  exact reached.sound.take pc

end WordMachine

namespace Program

variable {resources : Resources}

/-- The program that stops after so many instructions. -/
def upTo (program : Program) (count : Nat) : Program where
  pool := program.pool
  code := program.code.take count

theorem toList_code_upTo (program : Program) (count : Nat) :
    (program.upTo count).code.toList = program.code.toList.take count := by
  simp [upTo]

section

variable {program : Program} {effects : Effects} {ran unrun : List Instr} {instr : Instr}
variable {reached last : WordMachine.State} {fault : Fault}
variable (allocatable : resources.stackSize ≤ resources.memory)
include allocatable

theorem exists_run_upTo_eq_ok (split : program.code.toList = ran ++ unrun)
    (before : WordMachine.runFrom (program.bounds resources) 0 ran (program.start effects) =
      .ok () reached) :
    ∃ between, (program.upTo ran.length).run resources effects = .ok () between := by
  have code : (program.upTo ran.length).code.toList = ran := by
    rw [toList_code_upTo, split, List.take_left]
  have run : WordMachine.runFrom ((program.upTo ran.length).bounds resources) 0
      (program.upTo ran.length).code.toList ((program.upTo ran.length).start effects) =
        .ok () reached := by
    rw [code]
    exact before
  exact ⟨_, run_of_runFrom_ok allocatable run⟩

theorem run_upTo_eq_error (split : program.code.toList = ran ++ instr :: unrun)
    (before : WordMachine.runFrom (program.bounds resources) 0 ran (program.start effects) =
      .ok () reached)
    (failed : WordMachine.execute (program.bounds resources) ran.length instr reached =
      .error fault last) :
    (program.upTo (ran.length + 1)).run resources effects = .error fault last.effects := by
  have code : (program.upTo (ran.length + 1)).code.toList = ran ++ [instr] := by
    rw [toList_code_upTo, split, List.take_length_add_append]
    rfl
  have run : WordMachine.runFrom ((program.upTo (ran.length + 1)).bounds resources) 0
      (program.upTo (ran.length + 1)).code.toList
      ((program.upTo (ran.length + 1)).start effects) = .error fault last := by
    rw [code, WordMachine.runFrom_concat, Nat.zero_add]
    exact (EStateM.bind_of_ok before).trans failed
  exact run_of_runFrom_error allocatable run

end

section

variable {program : Program} {effects after : Effects} {fault : Fault}
variable (allocatable : resources.stackSize ≤ resources.memory)
include allocatable

theorem events_of_run_eq_ok (ran : program.run resources effects = .ok () after) :
    ∃ sp : Nat, (sp : Int) = 8 * Code.depth program.code.toList ∧
      after.events.toList =
        effects.events.toList ++ WordMachine.announcements program.code.toList ++
          [.finished program.code.size sp (8 * Code.reads program.code.toList)] := by
  cases run : WordMachine.runFrom (program.bounds resources) 0 program.code.toList
      (program.start effects) with
  | ok _ state =>
      have reached := reached_of_runFrom run
      rw [run_of_runFrom_ok allocatable run] at ran
      cases ran
      refine ⟨8 * state.words.length, ?_, ?_⟩
      · rw [← reached.words]
        rfl
      · rw [← reached.events, Effects.record, Array.toList_push]
  | error fault state =>
      rw [run_of_runFrom_error allocatable run] at ran
      cases ran

theorem exists_of_run_eq_error (failed : program.run resources effects = .error fault after) :
    ∃ ran instr unrun sink last, program.code.toList = ran ++ instr :: unrun ∧
      Code.Sound (program.bounds resources) ran ∧
      WordMachine.StepResult (program.bounds resources) ran instr sink (.error fault last) ∧
      after.events.toList =
        effects.events.toList ++ WordMachine.announcements (ran ++ [instr]) := by
  cases run : WordMachine.runFrom (program.bounds resources) 0 program.code.toList
      (program.start effects) with
  | ok _ state =>
      rw [run_of_runFrom_ok allocatable run] at failed
      cases failed
  | error reason last =>
      rw [run_of_runFrom_error allocatable run] at failed
      cases failed
      rcases exists_of_runFrom_eq_error run with
        ⟨ran, instr, unrun, state, split, before, executed⟩
      have reached := reached_of_runFrom before
      have result := reached.execute instr
      have events := reached.events_execute instr
      rw [executed] at result events
      exact ⟨ran, instr, unrun, _, last, split, reached.sound, result, events⟩

end

theorem run_events_faithful (program : Program)
    (allocatable : resources.stackSize ≤ resources.memory) (effects : Effects) :
    let code := program.code.toList
    ∃ execs, FollowsCode code resources.stackSize execs ∧
      match program.run resources effects with
      | .ok _ after =>
          execs.length = code.length ∧ 8 * Code.reads code ≤ program.pool.length ∧
            ∃ sp : Nat, (sp : Int) = 8 * Code.depth code ∧
              after.events.toList = effects.events.toList ++ execs ++
                [.finished code.length sp (8 * Code.reads code)]
      | .error fault after =>
          after.events.toList = effects.events.toList ++ execs ∧
            ∃ failing < code.length, execs.length = failing + 1 ∧
              (∃ between, (program.upTo failing).run resources effects = .ok () between) ∧
              (program.upTo (failing + 1)).run resources effects = .error fault after := by
  intro code
  cases run : WordMachine.runFrom (program.bounds resources) 0 code
      (program.start effects) with
  | ok _ state =>
      have reached := reached_of_runFrom run
      refine ⟨WordMachine.announcements code,
        reached.followsCode (List.append_nil code).symm, ?_⟩
      rw [run_of_runFrom_ok allocatable run]
      refine ⟨WordMachine.length_announcements code, reached.sound.counts.2.2,
        8 * state.words.length, ?_, ?_⟩
      · rw [← reached.words]
        rfl
      · rw [← reached.events]
        simp [Effects.record, code]
  | error fault last =>
      rcases exists_of_runFrom_eq_error run with
        ⟨ran, instr, unrun, reached, split, before, failed⟩
      -- The instruction at fault is announced before it fails.
      have atFault := reached_of_runFrom before
      have events := atFault.events_execute instr
      rw [failed] at events
      have inside : ran.length < code.length := by
        rw [split, List.length_append, List.length_cons]
        omega
      refine ⟨WordMachine.announcements (ran ++ [instr]),
        atFault.followsCode_concat split, ?_⟩
      rw [run_of_runFrom_error allocatable run]
      refine ⟨events, ran.length, inside, ?_, ?_, ?_⟩
      · rw [WordMachine.length_announcements, List.length_append, List.length_singleton]
      · exact exists_run_upTo_eq_ok allocatable split before
      · exact run_upTo_eq_error allocatable split before failed

theorem run_events_faithful_full_sink :
    let execs := [.exec 0 (.readConstant .u64) 0, .exec 1 (.print .u64) 8,
      .exec 2 (.print .none) 0]
    let after : Effects := {
      sink := { text := "7\nn", room := some 0 }, events := execs.toArray }
    shortPool.run { stackSize := 12 } { sink := { room := some 3 } } =
        .error .output after ∧
      FollowsCode shortPool.code.toList 12 execs := by
  intro execs after
  have run : shortPool.run { stackSize := 12 } { sink := { room := some 3 } } =
      .error .output after := by rfl
  have general := run_events_faithful shortPool
    (show Resources.stackSize { stackSize := 12 } ≤ 2 ^ 28 by decide)
    { sink := { room := some 3 } }
  rw [run] at general
  rcases general with ⟨recorded, follows, events, -⟩
  have same : execs = recorded := events
  exact ⟨run, same ▸ follows⟩

end Program

end ExprMachine

import ExprMachine.Proofs.Expr.Output
import ExprMachine.Proofs.Program.Events

/-! # Less room for output

A limit on the output decides about nothing but the output. With a limit, a program runs
as it does without one, up to the line that does not fit; that line is cut off, and the run
ends there, whatever would have come later. -/

namespace ExprMachine

/-- The effects of the same run if its sink had room for `limit` characters in all. -/
def Effects.limited (limit : Nat) (effects : Effects) : Effects :=
  ⟨Sink.limited limit effects.sink.text, effects.events⟩

theorem Effects.limited_length_add (text : String) (limit : Nat) (events : Array Event) :
    Effects.limited (text.length + limit) ⟨{ text }, events⟩ =
      ⟨⟨text, some limit⟩, events⟩ := by
  rw [limited, Sink.limited_of_le (Nat.le_add_right text.length limit),
    Nat.add_sub_cancel_left]

namespace WordMachine

def State.limited (limit : Nat) (state : State) : State :=
  ⟨state.words, state.constants, state.effects.limited limit⟩

/-- What a limit makes of a result, which was found without one. Either all that has been
written fits, or writing failed, and then what is in the sink and what was recorded are the
beginnings of what they are without a limit. -/
inductive CutOff (limit : Nat) :
    EStateM.Result Fault State Unit → EStateM.Result Fault State Unit → Prop where
  | ok {after : State} : after.effects.sink.text.length ≤ limit →
      CutOff limit (.ok () after) (.ok () (after.limited limit))
  | error {fault : Fault} {after : State} : after.effects.sink.text.length ≤ limit →
      CutOff limit (.error fault after) (.error fault (after.limited limit))
  | full {free : EStateM.Result Fault State Unit} {stored : State} (reached : State) :
      limit < reached.effects.sink.text.length →
        reached.effects.GrowsTo (outcome free).2.effects →
          stored.effects = reached.effects.limited limit →
            CutOff limit free (.error .output stored)

variable {bounds : Bounds} {limit : Nat} {state : State}

theorem cutOff_writeLine (line : String) (unlimited : state.effects.sink.room = none) :
    CutOff limit (writeLine line state) (writeLine line (state.limited limit)) := by
  rcases state with ⟨words, constants, ⟨⟨text, room⟩, events⟩⟩
  cases unlimited
  let printed := line ++ "\n"
  -- A line is never empty, so one that does not fit takes more than all of the room.
  have fits_iff : printed.length ≤ limit - text.length ↔ (text ++ printed).length ≤ limit := by
    have positive : printed.length = line.length + 1 := String.length_append line "\n"
    rw [String.length_append text printed]
    omega
  have written := Sink.outcome_write_limited limit text printed
  have free : writeLine line ⟨words, constants, ⟨⟨text, none⟩, events⟩⟩ =
      .ok () ⟨words, constants, ⟨⟨text ++ printed, none⟩, events⟩⟩ := rfl
  rw [free, State.limited, Effects.limited, writeLine, Effects.onSink, Sink.writeLine]
  generalize Sink.write printed (Sink.limited limit text) = result at written ⊢
  by_cases fits : printed.length ≤ limit - text.length
  · rw [if_pos fits] at written
    cases result with
    | ok _ after =>
        cases written
        exact .ok (fits_iff.mp fits)
    | error fault after => cases written
  · rw [if_neg fits] at written
    cases result with
    | ok _ after => cases written
    | error fault after =>
        cases written
        have tooLong := Nat.not_le.mp (mt fits_iff.mpr fits)
        exact .full ⟨words, constants, ⟨⟨text ++ printed, none⟩, events⟩⟩ tooLong (.refl _) rfl

theorem cutOff_step (instr : Instr) (unlimited : state.effects.sink.room = none)
    (fits : state.effects.sink.text.length ≤ limit) :
    CutOff limit (step bounds instr state) (step bounds instr (state.limited limit)) := by
  rcases state with ⟨words, constants, effects⟩
  cases instr with
  | readConstant scalar =>
      cases constants with
      | nil => exact .error fits
      | cons constant constants =>
          simp only [State.limited, step]
          split
          · exact .ok fits
          · exact .error fits
  | arith op scalar =>
      rcases words with _ | ⟨left, _ | ⟨right, words⟩⟩
      · exact .error fits
      · exact .error fits
      · simp only [State.limited, step]
        split
        · exact .ok fits
        · exact .error fits
  | print ty =>
      cases ty with
      | none => exact cutOff_writeLine "none" unlimited
      | u64 =>
          cases words with
          | nil => exact .error fits
          | cons word words =>
              exact @cutOff_writeLine limit ⟨words, constants, effects⟩ _ unlimited

theorem cutOff_runFrom (pc : Nat) (code : List Instr)
    (unlimited : state.effects.sink.room = none)
    (fits : state.effects.sink.text.length ≤ limit) :
    CutOff limit (runFrom bounds pc code state)
      (runFrom bounds pc code (state.limited limit)) := by
  induction code generalizing pc state with
  | nil => exact .ok fits
  | cons instr rest induction =>
      let announced := state.record (.exec pc instr (8 * state.words.length))
      have stepped : CutOff limit (execute bounds pc instr state)
          (execute bounds pc instr (state.limited limit)) :=
        @cutOff_step bounds limit announced instr unlimited fits
      have room := @room_step bounds instr announced unlimited
      change (outcome (execute bounds pc instr state)).2.effects.sink.room = none at room
      have later := growsTo_bind state (execute bounds pc instr) fun _ =>
        growsTo_runFrom bounds (pc + 1) rest
      rw [runFrom_cons]
      generalize free : execute bounds pc instr state = result at stepped room later
      generalize cut : execute bounds pc instr (state.limited limit) = limited at stepped
      cases stepped with
      | ok afterFits =>
          rw [EStateM.bind_of_ok free, EStateM.bind_of_ok cut]
          exact induction (pc + 1) room afterFits
      | error afterFits =>
          rw [EStateM.bind_of_error free, EStateM.bind_of_error cut]
          exact .error afterFits
      | full reached tooLong grows stored =>
          rw [EStateM.bind_of_error cut]
          exact .full reached tooLong (grows.trans later) stored

theorem exists_lines_of_runFrom (pc : Nat) (code : List Instr) {text : String}
    (unlimited : state.effects.sink = { text }) :
    ∃ outcomes : List (Option (Word 8)),
      (outcome (runFrom bounds pc code state)).2.effects.sink =
        { text := text ++ unlines (outcomes.map Expr.line) } := by
  apply runFrom_keeps fun effects => ∃ outcomes : List (Option (Word 8)),
    effects.sink = { text := text ++ unlines (outcomes.map Expr.line) }
  · rintro value ⟨sink, events⟩ ⟨outcomes, rfl⟩
    refine ⟨outcomes ++ [value], ?_⟩
    rw [List.map_append, unlines_append, List.map_singleton, unlines_singleton,
      ← String.append_assoc]
    rfl
  · intro event effects kept
    exact kept
  · refine ⟨[], ?_⟩
    rw [unlimited, List.map_nil, unlines, List.map_nil, String.join_nil, String.append_empty]

end WordMachine

namespace Program

open WordMachine (CutOff announcements)

variable {resources : Resources}

theorem exists_lines_of_run (program : Program)
    (allocatable : resources.stackSize ≤ resources.memory) (text : String)
    (events : Array Event) :
    ∃ outcomes : List (Option (Word 8)),
      (outcome (program.run resources ⟨{ text }, events⟩)).2.sink =
        { text := text ++ unlines (outcomes.map Expr.line) } := by
  have lines := @WordMachine.exists_lines_of_runFrom (program.bounds resources)
    (program.start ⟨{ text }, events⟩) 0 program.code.toList text rfl
  cases run : WordMachine.runFrom (program.bounds resources) 0 program.code.toList
      (program.start ⟨{ text }, events⟩) with
  | ok _ state =>
      rw [run_of_runFrom_ok allocatable run]
      rwa [run] at lines
  | error fault state =>
      rw [run_of_runFrom_error allocatable run]
      rwa [run] at lines

theorem exists_announcements_of_runFrom_eq_error {program : Program} {effects : Effects}
    {fault : Fault} {state : WordMachine.State}
    (run : WordMachine.runFrom (program.bounds resources) 0 program.code.toList
      (program.start effects) = .error fault state) :
    ∃ executed, state.effects.events.toList =
      effects.events.toList ++ announcements executed := by
  rcases exists_of_runFrom_eq_error run with ⟨ran, instr, unrun, before, -, beforeRun, failed⟩
  have announced := (reached_of_runFrom beforeRun).events_execute instr
  rw [failed] at announced
  exact ⟨ran ++ [instr], announced⟩

theorem run_limited_cases (program : Program)
    (allocatable : resources.stackSize ≤ resources.memory) {effects : Effects} {limit : Nat}
    (unlimited : effects.sink.room = none) (fits : effects.sink.text.length ≤ limit) :
    let free := outcome (program.run resources effects)
    let limited := outcome (program.run resources (effects.limited limit))
    (free.2.sink.text.length ≤ limit ∧ limited = (free.1, free.2.limited limit)) ∨
      (limit < free.2.sink.text.length ∧ limited.1 = .error .output ∧
        limited.2.sink = Sink.limited limit free.2.sink.text ∧
        limited.2.events.toList <+: free.2.events.toList ∧
        ∃ executed, limited.2.events.toList =
          effects.events.toList ++ announcements executed) := by
  intro free limited
  have cut := @WordMachine.cutOff_runFrom (program.bounds resources) limit
    (program.start effects) 0 program.code.toList unlimited fits
  have grows := program.growsTo_run allocatable effects
  change CutOff limit _ (WordMachine.runFrom _ _ _ (program.start (effects.limited limit)))
    at cut
  generalize freeRun : WordMachine.runFrom (program.bounds resources) 0 program.code.toList
    (program.start effects) = freeResult at cut grows
  generalize limitedRun : WordMachine.runFrom (program.bounds resources) 0
    program.code.toList (program.start (effects.limited limit)) = limitedResult at cut
  cases cut with
  | ok afterFits =>
      left
      simp only [free, limited, run_of_runFrom_ok allocatable freeRun,
        run_of_runFrom_ok allocatable limitedRun]
      exact ⟨afterFits, rfl⟩
  | error afterFits =>
      left
      simp only [free, limited, run_of_runFrom_error allocatable freeRun,
        run_of_runFrom_error allocatable limitedRun]
      exact ⟨afterFits, rfl⟩
  | full reached tooLong reachedGrows stored =>
      right
      have announced := exists_announcements_of_runFrom_eq_error limitedRun
      -- What was written up to the limit is the beginning of all that is written without one.
      have grown : reached.effects.GrowsTo free.2 := reachedGrows.trans grows
      have longer := grown.text.length_le
      rw [String.length_toList, String.length_toList] at longer
      simp only [limited, run_of_runFrom_error allocatable limitedRun]
      refine ⟨Nat.lt_of_lt_of_le tooLong longer, rfl, ?_, ?_, announced⟩
      · rw [stored]
        exact (Sink.limited_eq_of_prefix grown.text (Nat.le_of_lt tooLong)).symm
      · rw [stored]
        exact grown.events

/-- With a limit the program stores the beginning of what it prints without one. If all of
it fits there is no other difference; if not, the run fails with the line that does not fit,
and has recorded what it carried out until then. The limit counts bytes, since no character
that is printed takes more than one. -/
theorem run_truncated (program : Program)
    (allocatable : resources.stackSize ≤ resources.memory) (text : String)
    (events : Array Event) (limit : Nat) :
    let (freeAnswer, free) := outcome (program.run resources ⟨{ text }, events⟩)
    let (answer, after) := outcome (program.run resources ⟨⟨text, some limit⟩, events⟩)
    ∃ printed : String, free.sink.text = text ++ printed ∧
      printed.utf8ByteSize = printed.length ∧
      after.sink.text = text ++ Sink.cut limit printed ∧
      if printed.length ≤ limit then
        answer = freeAnswer ∧ after.events = free.events
      else
        answer = .error .output ∧ after.events.toList <+: free.events.toList ∧
          ∃ execs, after.events.toList = events.toList ++ execs ∧
            ∀ event ∈ execs, ∃ pc instr sp, event = .exec pc instr sp := by
  rcases program.exists_lines_of_run allocatable text events with ⟨outcomes, lines⟩
  have bytes := Expr.utf8ByteSize_unlines outcomes
  have either := @run_limited_cases resources program allocatable ⟨{ text }, events⟩
    (text.length + limit) rfl (Nat.le_add_right text.length limit)
  rw [Effects.limited_length_add] at either
  generalize unlines (outcomes.map Expr.line) = printed at lines bytes
  generalize outcome (program.run resources ⟨{ text }, events⟩) = free at lines either ⊢
  generalize outcome (program.run resources ⟨⟨text, some limit⟩, events⟩) = limited
    at either ⊢
  rcases free with ⟨freeAnswer, ⟨sink, freeEvents⟩⟩
  rcases limited with ⟨answer, after⟩
  cases lines
  have stored : Sink.limited (text.length + limit) (text ++ printed) =
      ⟨text ++ Sink.cut limit printed, some (limit - printed.length)⟩ :=
    Sink.limited_append text printed limit
  have fits_iff : (text ++ printed).length ≤ text.length + limit ↔ printed.length ≤ limit := by
    rw [String.length_append]
    omega
  refine ⟨printed, rfl, bytes, ?_⟩
  rcases either with ⟨fits, same⟩ | ⟨tooLong, rfl, sink, recorded, executed, announced⟩
  · cases same
    rw [if_pos (fits_iff.mp fits)]
    exact ⟨congrArg Sink.text stored, rfl, rfl⟩
  · rw [if_neg (mt fits_iff.mpr (Nat.not_le.mpr tooLong))]
    refine ⟨congrArg Sink.text (sink.trans stored), rfl, recorded, _, announced, ?_⟩
    intro event member
    exact WordMachine.exists_eq_exec_of_mem_announcements member

/-- The pool runs out of constants once two lines have been printed. If the lines fill the
sink to the last byte, that is the fault; if a byte is wanting, it goes unnoticed. -/
theorem run_truncated_shortPool :
    let run (room : Option Nat) :=
      outcome (shortPool.run { stackSize := 12 } { sink := { room := room } })
    (run none).1 = .error (.corruptPool 8 8 12) ∧ (run none).2.sink.text = "7\nnone\n" ∧
      (run (some 7)).1 = .error (.corruptPool 8 8 12) ∧
      (run (some 7)).2.events = (run none).2.events ∧
      (run (some 6)).1 = .error .output ∧ (run (some 6)).2.sink.text = "7\nnone" := by
  intro run
  have allocatable : Resources.stackSize { stackSize := 12 } ≤ 2 ^ 28 := by decide
  have fault : (run none).1 = .error (.corruptPool 8 8 12) := by rfl
  have text : (run none).2.sink.text = "7\nnone\n" := by rfl
  rcases run_truncated shortPool allocatable "" #[] 7 with ⟨printed, same, -, -, whole⟩
  cases text.symm.trans (same.trans String.empty_append)
  rcases run_truncated shortPool allocatable "" #[] 6 with ⟨printed, same, -, stored, part⟩
  cases text.symm.trans (same.trans String.empty_append)
  rw [if_pos (by decide)] at whole
  rw [if_neg (by decide)] at part
  exact ⟨fault, text, whole.1.trans fault, whole.2, part.1, stored⟩

end Program

end ExprMachine

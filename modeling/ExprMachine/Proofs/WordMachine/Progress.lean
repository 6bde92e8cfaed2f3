import ExprMachine.Proofs.Code.Counts
import ExprMachine.Proofs.Expr.Evaluation
import ExprMachine.Proofs.WordMachine.Refinement
import ExprMachine.Session

/-! # How far a run gets

A run carries out all of its instructions, or those before one that fails. At each point
the depth of the stack, the constants that are left and the events so far are known from
the instructions that have been carried out. -/

namespace ExprMachine

namespace WordMachine

variable {bounds : Bounds} {pc : Nat} {code first rest ran : List Instr} {instr : Instr}
variable {state reached after : State} {start : Effects} {fault : Fault}

/-! ## Runs in two parts -/

def execute (bounds : Bounds) (pc : Nat) (instr : Instr) : EStateM Fault State Unit :=
  fun state =>
    step bounds instr (state.record (.exec pc instr (8 * state.words.length)))

theorem runFrom_cons :
    runFrom bounds pc (instr :: rest) = (do
      execute bounds pc instr
      runFrom bounds (pc + 1) rest) := by
  funext state
  cases executed : execute bounds pc instr state with
  | ok _ after => rw [EStateM.bind_of_ok executed, runFrom_cons_of_ok pc executed]
  | error fault after =>
      rw [EStateM.bind_of_error executed, runFrom_cons_of_error pc executed]

theorem runFrom_append :
    runFrom bounds pc (first ++ rest) = (do
      runFrom bounds pc first
      runFrom bounds (pc + first.length) rest) := by
  induction first generalizing pc with
  | nil => exact (pure_bind () fun _ => runFrom bounds pc rest).symm
  | cons instr first induction =>
      rw [List.cons_append, runFrom_cons, runFrom_cons, induction, bind_assoc,
        List.length_cons, Nat.add_right_comm, Nat.add_assoc]

theorem runFrom_concat :
    runFrom bounds pc (code ++ [instr]) = (do
      runFrom bounds pc code
      execute bounds (pc + code.length) instr) := by
  rw [runFrom_append, runFrom_cons]
  exact congrArg (runFrom bounds pc code >>= ·) (funext fun _ => bind_pure _)

theorem exists_of_runFrom_eq_error
    (failed : runFrom bounds pc code state = .error fault after) :
    ∃ ran instr unrun reached, code = ran ++ instr :: unrun ∧
      runFrom bounds pc ran state = .ok () reached ∧
      execute bounds (pc + ran.length) instr reached = .error fault after := by
  induction code generalizing pc state with
  | nil => cases failed
  | cons instr code induction =>
      rw [runFrom_cons] at failed
      rcases EStateM.bind_eq_error_iff.mp failed with first | ⟨_, middle, first, later⟩
      · exact ⟨[], instr, code, state, rfl, rfl, first⟩
      · rcases induction later with ⟨ran, last, unrun, reached, rfl, before, fails⟩
        refine ⟨instr :: ran, last, unrun, reached, rfl, ?_, ?_⟩
        · rw [runFrom_cons, EStateM.bind_of_ok first]
          exact before
        · rw [List.length_cons, Nat.add_right_comm, Nat.add_assoc] at *
          exact fails

/-! ## One instruction -/

section

variable (Kept : Effects → Prop)
variable (written : ∀ value effects, Kept effects →
  Kept (outcome (Effects.onSink (Sink.writeLine (Expr.line value)) effects)).2)
include written

theorem step_keeps (instr : Instr) (state : State) (kept : Kept state.effects) :
    Kept (outcome (step bounds instr state)).2.effects := by
  have printed : ∀ (value : Option (Word 8)) (state : State), Kept state.effects →
      Kept (outcome (writeLine (Expr.line value) state)).2.effects := by
    intro value state kept
    have after := written value state.effects kept
    rw [writeLine]
    cases wrote : Effects.onSink (Sink.writeLine (Expr.line value)) state.effects <;>
      rw [wrote] at after <;> exact after
  rcases state with ⟨words, constants, effects⟩
  cases instr with
  | readConstant scalar =>
      cases constants with
      | nil => exact kept
      | cons constant constants =>
          rw [step]
          split <;> exact kept
  | arith op scalar =>
      rcases words with _ | ⟨left, _ | ⟨right, words⟩⟩
      · exact kept
      · exact kept
      · rw [step]
        split <;> exact kept
  | print ty =>
      cases ty with
      | none => exact printed none _ kept
      | u64 =>
          cases words with
          | nil => exact kept
          | cons word words => exact printed (some word) ⟨words, constants, effects⟩ kept

theorem runFrom_keeps
    (recorded : ∀ event effects, Kept effects → Kept (effects.record event))
    (pc : Nat) (code : List Instr) (state : State) (kept : Kept state.effects) :
    Kept (outcome (runFrom bounds pc code state)).2.effects := by
  induction code generalizing pc state with
  | nil => exact kept
  | cons instr rest induction =>
      have executed : Kept (outcome (execute bounds pc instr state)).2.effects :=
        step_keeps Kept written instr _ (recorded _ _ kept)
      rw [runFrom_cons]
      cases reached : execute bounds pc instr state with
      | error fault after =>
          rw [EStateM.bind_of_error reached]
          rwa [reached] at executed
      | ok _ after =>
          rw [EStateM.bind_of_ok reached]
          rw [reached] at executed
          exact induction (pc + 1) after executed

end

theorem events_step (instr : Instr) (state : State) :
    (outcome (step bounds instr state)).2.effects.events = state.effects.events := by
  refine step_keeps (·.events = state.effects.events) ?_ instr state rfl
  intro value effects kept
  rw [← kept, Effects.onSink]
  cases Sink.writeLine (Expr.line value) effects.sink <;> rfl

theorem room_step (instr : Instr) (state : State)
    (unlimited : state.effects.sink.room = none) :
    (outcome (step bounds instr state)).2.effects.sink.room = none := by
  refine step_keeps (·.sink.room = none) ?_ instr state unlimited
  rintro value ⟨⟨text, room⟩, events⟩ rfl
  rfl

/-! ## Counted states -/

structure Counted (bounds : Bounds) (ran : List Instr) (state : State) : Prop where
  words : (state.words.length : Int) = Code.depth ran
  constants : state.constants.length + Code.reads ran = bounds.poolLength / 8
  sound : Code.Sound bounds ran

/-- What can come of an instruction after those that ran. A fault that the counts do not
foresee is a division by zero, or a line that does not fit into the sink. -/
inductive StepResult (bounds : Bounds) (ran : List Instr) (instr : Instr) (sink : Sink) :
    EStateM.Result Fault State Unit → Prop where
  | ok {after : State} : Counted bounds (ran ++ [instr]) after →
      StepResult bounds ran instr sink (.ok () after)
  | foreseen {fault : Fault} {after : State} :
      instr.fault? bounds (Code.reads ran) (Code.depth ran) = some fault →
        StepResult bounds ran instr sink (.error fault after)
  | division {scalar : Scalar} {after : State} : instr = .arith .div scalar →
      instr.fault? bounds (Code.reads ran) (Code.depth ran) = none →
        StepResult bounds ran instr sink (.error .divisionByZero after)
  | output {after : State} : sink.room ≠ none →
      instr.fault? bounds (Code.reads ran) (Code.depth ran) = none →
        StepResult bounds ran instr sink (.error .output after)

namespace Counted

theorem next (counted : Counted bounds ran state)
    (fits : instr.fault? bounds (Code.reads ran) (Code.depth ran) = none)
    (words : (after.words.length : Int) = state.words.length + instr.effect)
    (constants : after.constants.length + instr.isRead.toNat = state.constants.length) :
    Counted bounds (ran ++ [instr]) after where
  words := by rw [words, counted.words, Code.depth_concat]
  constants := by
    rw [← counted.constants, ← constants, Code.reads_concat]
    omega
  sound := Code.sound_concat_iff.mpr ⟨counted.sound, fits⟩

theorem record (counted : Counted bounds ran state) (event : Event) :
    Counted bounds ran (state.record event) :=
  ⟨counted.words, counted.constants, counted.sound⟩

theorem length_words_le (counted : Counted bounds ran state) :
    state.words.length ≤ bounds.capacity / 8 := by
  have room := counted.sound.counts.2.1
  rw [← counted.words] at room
  omega

theorem step_readConstant (counted : Counted bounds ran state) (scalar : Scalar)
    (sink : Sink) :
    StepResult bounds ran (.readConstant scalar) sink
      (step bounds (.readConstant scalar) state) := by
  have words := counted.words
  have constants := counted.constants
  have inside := counted.length_words_le
  have read := counted.sound.counts.2.2
  rcases state with ⟨stack, _ | ⟨constant, unread⟩, effects⟩
  · simp only [List.length_nil] at constants
    have exhausted : bounds.poolLength < 8 * (Code.reads ran + 1) := by omega
    apply StepResult.foreseen
    rw [Instr.fault?, if_pos exhausted, Fault.exhausted, ← constants, Nat.zero_add]
  · simp only [List.length_cons] at words constants inside
    have left : ¬bounds.poolLength < 8 * (Code.reads ran + 1) := by omega
    rw [step]
    split
    · rename_i room
      have fits : ¬(bounds.capacity : Int) < 8 * (Code.depth ran + 1) := by omega
      refine .ok (counted.next ?_ rfl rfl)
      rw [Instr.fault?, if_neg left, if_neg fits]
    · rename_i full
      have tight : (bounds.capacity : Int) < 8 * (Code.depth ran + 1) := by omega
      have top : (8 * Code.depth ran).toNat = 8 * (bounds.capacity / 8) := by omega
      apply StepResult.foreseen
      rw [Instr.fault?, if_neg left, if_pos tight, top, Fault.full]

theorem step_arith (counted : Counted bounds ran state) (op : BinOp) (scalar : Scalar)
    (sink : Sink) :
    StepResult bounds ran (.arith op scalar) sink
      (step bounds (.arith op scalar) state) := by
  have words := counted.words
  have short : state.words.length < 2 →
      (Instr.arith op scalar).fault? bounds (Code.reads ran) (Code.depth ran) =
        some (.stackUnderflow 0 8) :=
    fun few => if_pos (by omega)
  rcases state with ⟨_ | ⟨left, _ | ⟨right, below⟩⟩, constants, effects⟩
  · exact .foreseen (short Nat.zero_lt_two)
  · exact .foreseen (short Nat.one_lt_two)
  · simp only [List.length_cons] at words
    have fits : (Instr.arith op scalar).fault? bounds (Code.reads ran) (Code.depth ran) =
        none := if_neg (by omega)
    rw [step]
    cases applied : op.apply left right with
    | ok result =>
        refine .ok (counted.next fits ?_ rfl)
        simp only [List.length_cons, Instr.effect]
        omega
    | error fault =>
        rcases BinOp.eq_div_of_apply_eq_error applied with ⟨rfl, rfl⟩
        exact .division rfl fits

theorem writeLine (counted : Counted bounds (ran ++ [instr]) state)
    (fits : instr.fault? bounds (Code.reads ran) (Code.depth ran) = none)
    (line : String) :
    StepResult bounds ran instr state.effects.sink (writeLine line state) := by
  rcases state with ⟨words, constants, ⟨sink, events⟩⟩
  rw [WordMachine.writeLine, Effects.onSink]
  cases written : Sink.writeLine line sink with
  | ok _ after => exact .ok ⟨counted.words, counted.constants, counted.sound⟩
  | error fault after =>
      cases Sink.eq_output_of_writeLine written
      refine .output (fun unlimited => ?_) fits
      rcases sink with ⟨text, _ | room⟩
      · cases written
      · cases unlimited

theorem step_print (counted : Counted bounds ran state) (ty : Ty) :
    StepResult bounds ran (.print ty) state.effects.sink
      (step bounds (.print ty) state) := by
  have words := counted.words
  cases ty with
  | none =>
      have fits : (Instr.print .none).fault? bounds (Code.reads ran) (Code.depth ran) =
          none := rfl
      exact (counted.next fits (Int.add_zero _).symm rfl).writeLine fits "none"
  | u64 =>
      rcases state with ⟨_ | ⟨word, below⟩, constants, effects⟩
      · exact .foreseen (if_pos (words ▸ Int.zero_lt_one))
      · simp only [List.length_cons] at words
        have fits : (Instr.print .u64).fault? bounds (Code.reads ran) (Code.depth ran) =
            none := if_neg (by omega)
        have popped : Counted bounds (ran ++ [.print .u64]) ⟨below, constants, effects⟩ := by
          refine counted.next fits ?_ rfl
          simp only [List.length_cons, Instr.effect]
          omega
        exact popped.writeLine fits (toString word.toNat)

theorem step (counted : Counted bounds ran state) (instr : Instr) :
    StepResult bounds ran instr state.effects.sink (step bounds instr state) := by
  cases instr with
  | readConstant scalar => exact counted.step_readConstant scalar _
  | arith op scalar => exact counted.step_arith op scalar _
  | print ty => exact counted.step_print ty

end Counted

/-! ## Runs -/

/-- The events of instructions that begin on an empty stack, one after another. -/
def announcements (code : List Instr) : List Event :=
  code.mapIdx fun pc instr => .exec pc instr (8 * Code.depth (code.take pc)).toNat

theorem announcements_concat (code : List Instr) (instr : Instr) :
    announcements (code ++ [instr]) =
      announcements code ++ [.exec code.length instr (8 * Code.depth code).toNat] := by
  rw [announcements, List.mapIdx_concat, List.take_left, announcements]
  congr 1
  rw [List.mapIdx_eq_mapIdx_iff]
  intro pc inside
  rw [List.take_append_of_le_length (Nat.le_of_lt inside)]

/-- The state in which the instructions that ran have left a machine that was started
with an empty stack and nothing read. -/
structure Reached (bounds : Bounds) (start : Effects) (ran : List Instr)
    (state : State) : Prop extends Counted bounds ran state where
  events : state.effects.events.toList = start.events.toList ++ announcements ran
  room : start.sink.room = none → state.effects.sink.room = none

namespace Reached

theorem initial {constants : List (Word 8)}
    (whole : constants.length = bounds.poolLength / 8) (start : Effects) :
    Reached bounds start [] ⟨[], constants, start⟩ where
  words := rfl
  constants := whole
  sound := fun _ impossible => absurd impossible (Nat.not_lt_zero _)
  events := (List.append_nil _).symm
  room := id

theorem events_execute (reached : Reached bounds start ran state) (instr : Instr) :
    (outcome (execute bounds ran.length instr state)).2.effects.events.toList =
      start.events.toList ++ announcements (ran ++ [instr]) := by
  have depth : 8 * state.words.length = (8 * Code.depth ran).toNat := by
    rw [← reached.words]
    omega
  rw [execute, events_step, announcements_concat, ← List.append_assoc, ← reached.events,
    ← depth]
  exact Array.toList_push

theorem room_execute (reached : Reached bounds start ran state) (instr : Instr)
    (unlimited : start.sink.room = none) :
    (outcome (execute bounds ran.length instr state)).2.effects.sink.room = none :=
  room_step instr (state.record _) (reached.room unlimited)

theorem execute (reached : Reached bounds start ran state) (instr : Instr) :
    StepResult bounds ran instr state.effects.sink
      (execute bounds ran.length instr state) :=
  (reached.toCounted.record _).step instr

theorem next (reached : Reached bounds start ran state)
    (executed : WordMachine.execute bounds ran.length instr state = .ok () after) :
    Reached bounds start (ran ++ [instr]) after := by
  have result := reached.execute instr
  have events := reached.events_execute instr
  have room := reached.room_execute instr
  rw [executed] at result events room
  cases result with
  | ok counted => exact { counted with events, room }

theorem fault_mem (reached : Reached bounds start ran state)
    (failed : WordMachine.execute bounds ran.length instr state = .error fault after) :
    fault ∈ [Fault.full bounds.capacity, .stackUnderflow 0 8,
      Fault.exhausted bounds.poolLength, .divisionByZero, .output] := by
  have result := failed ▸ reached.execute instr
  cases result with
  | foreseen foreseen =>
      rcases reached.sound.fault?_eq_some foreseen with rfl | rfl | rfl
      · exact .head _
      · exact .tail _ (.head _)
      · exact .tail _ (.tail _ (.head _))
  | division => simp
  | output => simp

theorem of_runFrom (reached : Reached bounds start ran state)
    (run : runFrom bounds ran.length rest state = .ok () after) :
    Reached bounds start (ran ++ rest) after := by
  induction rest generalizing ran state with
  | nil =>
      cases run
      rwa [List.append_nil]
  | cons instr rest induction =>
      rw [runFrom_cons] at run
      rcases EStateM.bind_eq_ok_iff.mp run with ⟨_, middle, executed, run⟩
      rw [List.append_cons]
      refine induction (reached.next executed) ?_
      rwa [List.length_append, List.length_singleton]

end Reached

end WordMachine

end ExprMachine

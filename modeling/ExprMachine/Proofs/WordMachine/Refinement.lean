import ExprMachine.Machine
import ExprMachine.Proofs.Sequencing
import ExprMachine.Proofs.WordMachine.Basic

/-! # The byte machine behaves as the word machine

Every program runs alike on both, malformed programs included: same outcome, same
output, same events. A relation between the states of the two is kept by each
instruction, and from that by a whole run. -/

namespace ExprMachine

namespace WordMachine

variable {bounds : Bounds} {pool : ConstantPool} {state : Machine.State} {words : State}

/-- The live bytes of the stack are those of the words, the topmost last, and the
cursor stands where the words that are left to be read begin. -/
structure Represents (bounds : Bounds) (pool : ConstantPool) (state : Machine.State)
    (words : State) : Prop where
  capacity : state.stack.capacity = bounds.capacity
  poolLength : pool.length = bounds.poolLength
  live : state.stack.live = words.words.reverse.flatMap Word.bytes
  constants : Word.split 8 (pool.bytes.toList.drop state.cursor.offset) = words.constants
  aligned : 8 ∣ state.cursor.offset
  inside : state.cursor.offset ≤ pool.length
  effects : state.effects = words.effects

/-- After a fault only what the run leaves for others to see has to agree. -/
inductive SameResult (bounds : Bounds) (pool : ConstantPool) :
    EStateM.Result Fault Machine.State Unit → EStateM.Result Fault State Unit → Prop where
  | ok {state : Machine.State} {words : State} :
      Represents bounds pool state words →
        SameResult bounds pool (.ok () state) (.ok () words)
  | error {state : Machine.State} {words : State} (fault : Fault) :
      state.effects = words.effects →
        SameResult bounds pool (.error fault state) (.error fault words)

namespace Represents

theorem sp_eq (represents : Represents bounds pool state words) :
    state.stack.sp = 8 * words.words.length := by
  rw [← state.stack.length_live, represents.live, Word.length_flatMap_bytes,
    List.length_reverse]

theorem length_constants (represents : Represents bounds pool state words) :
    words.constants.length = (bounds.poolLength - state.cursor.offset) / 8 := by
  rw [← represents.constants, Word.length_split, List.length_drop, Array.length_toList,
    ← represents.poolLength, ConstantPool.length]

theorem offset_eq (represents : Represents bounds pool state words) :
    state.cursor.offset =
      8 * ((Word.split 8 pool.bytes.toList).length - words.constants.length) := by
  have left := represents.length_constants
  have aligned := represents.aligned
  have inside := represents.inside
  rw [← represents.poolLength] at left
  rw [Word.length_split, Array.length_toList, left]
  rw [ConstantPool.length] at left inside ⊢
  omega

theorem room_iff (represents : Represents bounds pool state words) :
    state.stack.sp + 8 ≤ state.stack.capacity ↔
      words.words.length < bounds.capacity / 8 := by
  rw [represents.sp_eq, represents.capacity]
  omega

theorem length_words_le (represents : Represents bounds pool state words) :
    words.words.length ≤ bounds.capacity / 8 := by
  have inside : state.stack.sp ≤ state.stack.capacity := state.stack.sp_le_size
  rw [represents.capacity, represents.sp_eq] at inside
  omega

theorem sp_of_full (represents : Represents bounds pool state words)
    (full : ¬words.words.length < bounds.capacity / 8) :
    state.stack.sp = 8 * (bounds.capacity / 8) := by
  rw [represents.sp_eq, Nat.le_antisymm represents.length_words_le (Nat.not_lt.mp full)]

theorem record (represents : Represents bounds pool state words) (event : Event) :
    Represents bounds pool (state.record event) (words.record event) where
  capacity := represents.capacity
  poolLength := represents.poolLength
  live := represents.live
  constants := represents.constants
  aligned := represents.aligned
  inside := represents.inside
  effects := congrArg (·.record event) represents.effects

end Represents

/-! ## The parts of an instruction -/

open Machine.State in
theorem Represents.push (represents : Represents bounds pool state words)
    (word : Word 8) :
    SameResult bounds pool (onStack (Stack.push word) state)
      (if words.words.length < bounds.capacity / 8 then
        .ok () ⟨word :: words.words, words.constants, words.effects⟩
      else
        .error (Fault.full bounds.capacity) words) := by
  by_cases room : words.words.length < bounds.capacity / 8
  · rcases Stack.push_of_room word (represents.room_iff.mpr room) with
      ⟨stack, pushed, live, capacity⟩
    simp only [onStack, pushed, if_pos room]
    refine .ok { represents with capacity := ?_, live := ?_ }
    · exact capacity.trans represents.capacity
    · rw [live, represents.live]
      simp
  · have full := Nat.not_le.mp (mt represents.room_iff.mp room)
    simp only [onStack, Stack.push_of_full word full, if_neg room]
    rw [represents.sp_of_full room, represents.capacity]
    exact .error _ represents.effects

open Machine.State in
theorem Represents.pop (represents : Represents bounds pool state words) {word : Word 8}
    {below : List (Word 8)} (top : words.words = word :: below) :
    ∃ after, onStack (Stack.pop 8) state = .ok word after ∧
      Represents bounds pool after ⟨below, words.constants, words.effects⟩ := by
  have depth := represents.sp_eq
  have live := represents.live
  rw [top] at depth live
  rw [List.length_cons] at depth
  rw [List.reverse_cons, List.flatMap_append, List.flatMap_singleton] at live
  have split : state.stack.sp - 8 = (below.reverse.flatMap Word.bytes).length := by
    rw [Word.length_flatMap_bytes, List.length_reverse]
    omega
  have deep : 8 ≤ state.stack.sp := by omega
  rcases Stack.pop_of_le deep with ⟨stack, popped, rest, capacity⟩
  rw [split, live, List.drop_left, Word.ofBytes_bytes] at popped
  rw [split, live, List.take_left] at rest
  refine ⟨⟨stack, state.cursor, state.effects⟩, ?_, ?_⟩
  · simp only [onStack, popped]
  · exact { represents with capacity := capacity.trans represents.capacity, live := rest }

open Machine.State in
theorem Represents.pop_of_empty (represents : Represents bounds pool state words)
    (empty : words.words = []) :
    onStack (Stack.pop 8) state = .error (.stackUnderflow 0 8) state := by
  have depth := represents.sp_eq
  rw [empty, List.length_nil] at depth
  have shallow : state.stack.sp < 8 := by omega
  simp only [onStack, Stack.pop_of_lt shallow, depth]

open Machine.State in
theorem Represents.read (represents : Represents bounds pool state words)
    {constant : Word 8} {unread : List (Word 8)}
    (next : words.constants = constant :: unread) :
    ∃ after, onCursor (pool.read 8) state = .ok constant after ∧
      Represents bounds pool after ⟨words.words, unread, words.effects⟩ := by
  have left := represents.length_constants
  have constants := represents.constants
  rw [next, List.length_cons, ← represents.poolLength] at left
  have inside : state.cursor.offset + 8 ≤ pool.length := by omega
  rw [next, Word.split_of_le (by decide)
    (by rw [List.length_drop, Array.length_toList]; exact Nat.le_sub_of_add_le' inside),
    List.cons.injEq, List.drop_drop] at constants
  refine ⟨⟨state.stack, { offset := state.cursor.offset + 8 }, state.effects⟩, ?_, ?_⟩
  · simp only [onCursor, ConstantPool.read_of_le inside, constants.1]
  · exact { represents with
      constants := constants.2
      aligned := Nat.dvd_add represents.aligned (Nat.dvd_refl 8)
      inside := inside }

open Machine.State in
theorem Represents.read_of_empty (represents : Represents bounds pool state words)
    (empty : words.constants = []) :
    onCursor (pool.read 8) state = .error (Fault.exhausted bounds.poolLength) state := by
  have left := represents.length_constants
  have aligned := represents.aligned
  have inside := represents.inside
  rw [empty, List.length_nil, ← represents.poolLength] at left
  have outside : pool.length < state.cursor.offset + 8 := by omega
  have atEnd : state.cursor.offset = 8 * (bounds.poolLength / 8) := by
    rw [← represents.poolLength]
    omega
  simp only [onCursor, ConstantPool.read_of_lt outside, Fault.exhausted, ← atEnd,
    represents.poolLength]

theorem Represents.writeLine (represents : Represents bounds pool state words)
    (line : String) :
    SameResult bounds pool (Machine.writeLine line state) (writeLine line words) := by
  simp only [Machine.writeLine, Machine.State.onEffects, WordMachine.writeLine,
    ← represents.effects]
  cases Effects.onSink (Sink.writeLine line) state.effects with
  | ok _ effects => exact .ok { represents with effects := rfl }
  | error fault effects => exact .error fault rfl

/-! ## Instructions, runs and programs -/

theorem Represents.step_arith (represents : Represents bounds pool state words)
    (op : BinOp) :
    SameResult bounds pool (Machine.step pool (.arith op .u64) state)
      (step bounds (.arith op .u64) words) := by
  change SameResult bounds pool ((do
    let left ← Machine.State.onStack (Stack.pop 8)
    let right ← Machine.State.onStack (Stack.pop 8)
    let result ← MonadExcept.ofExcept (op.apply left right)
    Machine.State.onStack (Stack.push result)) state) _
  rcases words with ⟨stackWords, constants, effects⟩
  cases stackWords with
  | nil =>
      rw [EStateM.bind_of_error (represents.pop_of_empty rfl)]
      exact .error _ represents.effects
  | cons left below =>
      rcases represents.pop rfl with ⟨between, popped, represents⟩
      rw [EStateM.bind_of_ok popped]
      cases below with
      | nil =>
          rw [EStateM.bind_of_error (represents.pop_of_empty rfl)]
          exact .error _ represents.effects
      | cons right below =>
          have full := represents.length_words_le
          rcases represents.pop rfl with ⟨after, popped, represents⟩
          rw [EStateM.bind_of_ok popped]
          cases applied : op.apply left right with
          | error fault =>
              simp only [step, applied]
              exact .error fault represents.effects
          | ok result =>
              simp only [step, applied]
              have room : below.length < bounds.capacity / 8 := full
              have pushed := represents.push result
              rw [if_pos room] at pushed
              exact pushed

theorem Represents.step (represents : Represents bounds pool state words)
    (instr : Instr) :
    SameResult bounds pool (Machine.step pool instr state) (step bounds instr words) := by
  match instr with
  | .readConstant .u64 =>
      change SameResult bounds pool ((do
        let word ← Machine.State.onCursor (pool.read 8)
        Machine.State.onStack (Stack.push word)) state) _
      rcases words with ⟨stackWords, constants, effects⟩
      cases constants with
      | nil =>
          rw [EStateM.bind_of_error (represents.read_of_empty rfl)]
          exact .error _ represents.effects
      | cons constant unread =>
          rcases represents.read rfl with ⟨after, read, represents⟩
          rw [EStateM.bind_of_ok read]
          exact represents.push constant
  | .arith op .u64 => exact represents.step_arith op
  | .print .none => exact represents.writeLine "none"
  | .print .u64 =>
      change SameResult bounds pool ((do
        let word ← Machine.State.onStack (Stack.pop 8)
        Machine.writeLine (toString word.toNat)) state) _
      rcases words with ⟨stackWords, constants, effects⟩
      cases stackWords with
      | nil =>
          rw [EStateM.bind_of_error (represents.pop_of_empty rfl)]
          exact .error _ represents.effects
      | cons word below =>
          rcases represents.pop rfl with ⟨after, popped, represents⟩
          rw [EStateM.bind_of_ok popped]
          exact represents.writeLine (toString word.toNat)

theorem Represents.runFrom (represents : Represents bounds pool state words) (pc : Nat)
    (code : List Instr) :
    SameResult bounds pool (Machine.runFrom pool pc code state)
      (runFrom bounds pc code words) := by
  induction code generalizing pc state words with
  | nil => exact .ok represents
  | cons instr rest induction =>
      let event := Event.exec pc instr (8 * words.words.length)
      have stepped := (represents.record event).step instr
      change SameResult bounds pool ((do
        Machine.step pool instr
        Machine.runFrom pool (pc + 1) rest)
          (state.record (.exec pc instr state.stack.sp))) _
      rw [represents.sp_eq]
      generalize reached : Machine.step pool instr (state.record event) = result at stepped
      generalize predicted : WordMachine.step bounds instr (words.record event) = expected
        at stepped
      cases stepped with
      | ok represents =>
          rw [EStateM.bind_of_ok reached, runFrom_cons_of_ok pc predicted]
          exact induction represents (pc + 1)
      | error fault effects =>
          rw [EStateM.bind_of_error reached, runFrom_cons_of_error pc predicted]
          exact .error fault effects

theorem represents_initial {stack : Stack} {memory capacity : Nat}
    (allocated : Stack.allocate memory capacity = .ok stack) (pool : ConstantPool)
    (effects : Effects) :
    Represents ⟨capacity, pool.length⟩ pool ⟨stack, {}, effects⟩
      ⟨[], Word.split 8 pool.bytes.toList, effects⟩ := by
  rw [Stack.allocate] at allocated
  split at allocated
  · cases allocated
    exact {
      capacity := Region.size_zeroed capacity
      poolLength := rfl
      live := rfl
      constants := rfl
      aligned := Nat.dvd_zero 8
      inside := Nat.zero_le _
      effects := rfl }
  · cases allocated

end WordMachine

/-- A program that gets its stack does what the word machine does with its code and
the whole words of its pool. -/
theorem Program.run_eq {resources : Resources} (program : Program)
    (allocatable : resources.stackSize ≤ resources.memory) :
    program.run resources =
      WordMachine.run ⟨resources.stackSize, program.pool.length⟩
        (Word.split 8 program.pool.bytes.toList) program.code.toList := by
  funext effects
  cases allocated : Stack.allocate resources.memory resources.stackSize with
  | error fault => simp [Stack.allocate, allocatable] at allocated
  | ok stack =>
      have initial := WordMachine.represents_initial allocated program.pool effects
      have same := initial.runFrom 0 program.code.toList
      simp only [Program.run, allocated, WordMachine.run]
      generalize Machine.runFrom program.pool 0 program.code.toList ⟨stack, {}, effects⟩ =
        reached at same ⊢
      generalize WordMachine.runFrom ⟨resources.stackSize, program.pool.length⟩ 0
        program.code.toList ⟨[], Word.split 8 program.pool.bytes.toList, effects⟩ =
        expected at same ⊢
      cases same with
      | error fault effects => simp only [effects]
      | @ok state words represents =>
          dsimp only
          rw [represents.sp_eq, represents.offset_eq, represents.effects]
          rfl

theorem Program.run_of_not_allocatable {resources : Resources} (program : Program)
    (tooLarge : resources.memory < resources.stackSize) (effects : Effects) :
    program.run resources effects =
      .error (.stackAllocation resources.stackSize) effects := by
  simp only [Program.run, Stack.allocate, if_neg (Nat.not_le.mpr tooLarge)]

end ExprMachine

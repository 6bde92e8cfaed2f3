import ExprMachine.Proofs.WordMachine.Refinement

/-! # Word machines inside a larger byte machine

A byte machine with bytes of any kind on its stack, and with its cursor anywhere in its
pool, does what a word machine does that knows nothing of either, for as long as that one
lacks nothing. The bytes below are never touched. -/

namespace ExprMachine

/-- The fault is no matter of how much stack and how many constants there are. -/
def Fault.Inherent : Fault → Prop
  | .divisionByZero | .output => True
  | _ => False

namespace WordMachine

variable {bounds : Bounds} {below : List UInt8} {finish : Nat} {pool : ConstantPool}
variable {state : Machine.State} {words : State}

/-- The words lie on the stack above the bytes `below`, and there is room for as many as
the word machine has. Its constants are what the cursor comes to next, and `finish` is
where they end. -/
structure Hosts (bounds : Bounds) (below : List UInt8) (finish : Nat) (pool : ConstantPool)
    (state : Machine.State) (words : State) : Prop where
  room : below.length + 8 * (bounds.capacity / 8) ≤ state.stack.capacity
  live : state.stack.live = below ++ words.words.reverse.flatMap Word.bytes
  constants : words.constants.flatMap Word.bytes <+:
    pool.bytes.toList.drop state.cursor.offset
  finish : state.cursor.offset + 8 * words.constants.length = finish
  sink : state.effects.sink = words.effects.sink

/-- Nothing is said of what follows when the word machine lacks stack or constants: the
larger machine need not lack them. -/
inductive Hosted (bounds : Bounds) (below : List UInt8) (finish : Nat)
    (pool : ConstantPool) :
    EStateM.Result Fault Machine.State Unit → EStateM.Result Fault State Unit → Prop where
  | ok {state : Machine.State} {words : State} :
      Hosts bounds below finish pool state words →
        Hosted bounds below finish pool (.ok () state) (.ok () words)
  | error {state : Machine.State} {words : State} (fault : Fault) :
      Hosts bounds below finish pool state words →
        Hosted bounds below finish pool (.error fault state) (.error fault words)
  | lacking {result : EStateM.Result Fault Machine.State Unit} {words : State}
      {fault : Fault} :
      ¬fault.Inherent → Hosted bounds below finish pool result (.error fault words)

namespace Hosts

theorem sp_eq (hosts : Hosts bounds below finish pool state words) :
    state.stack.sp = below.length + 8 * words.words.length := by
  rw [← state.stack.length_live, hosts.live, List.length_append,
    Word.length_flatMap_bytes, List.length_reverse]

theorem record (hosts : Hosts bounds below finish pool state words)
    (event other : Event) :
    Hosts bounds below finish pool (state.record event) (words.record other) where
  room := hosts.room
  live := hosts.live
  constants := hosts.constants
  finish := hosts.finish
  sink := hosts.sink

/-! ## The parts of an instruction -/

open Machine.State in
theorem push (hosts : Hosts bounds below finish pool state words) (word : Word 8)
    (room : state.stack.sp + 8 ≤ state.stack.capacity) :
    ∃ after, onStack (Stack.push word) state = .ok () after ∧
      Hosts bounds below finish pool after
        ⟨word :: words.words, words.constants, words.effects⟩ := by
  rcases Stack.push_of_room word room with ⟨stack, pushed, live, capacity⟩
  refine ⟨⟨stack, state.cursor, state.effects⟩, ?_, ?_⟩
  · simp only [onStack, pushed]
  · refine { hosts with room := capacity ▸ hosts.room, live := ?_ }
    rw [live, hosts.live]
    simp

open Machine.State in
theorem pop (hosts : Hosts bounds below finish pool state words) {word : Word 8}
    {others : List (Word 8)} (top : words.words = word :: others) :
    ∃ after, onStack (Stack.pop 8) state = .ok word after ∧
      Hosts bounds below finish pool after ⟨others, words.constants, words.effects⟩ ∧
      after.stack.sp + 8 ≤ after.stack.capacity := by
  have depth := hosts.sp_eq
  have live := hosts.live
  have inside : state.stack.sp ≤ state.stack.capacity := state.stack.sp_le_size
  rw [top, List.length_cons] at depth
  rw [top, List.reverse_cons, List.flatMap_append, List.flatMap_singleton,
    ← List.append_assoc] at live
  have split :
      state.stack.sp - 8 = (below ++ others.reverse.flatMap Word.bytes).length := by
    rw [List.length_append, Word.length_flatMap_bytes, List.length_reverse]
    omega
  have deep : 8 ≤ state.stack.sp := by omega
  rcases Stack.pop_of_le deep with ⟨stack, popped, rest, capacity⟩
  rw [split, live, List.drop_left, Word.ofBytes_bytes] at popped
  rw [split, live, List.take_left] at rest
  refine ⟨⟨stack, state.cursor, state.effects⟩, ?_, ?_, ?_⟩
  · simp only [onStack, popped]
  · exact { hosts with room := capacity ▸ hosts.room, live := rest }
  · change stack.sp + 8 ≤ stack.capacity
    rw [← stack.length_live, rest, ← split, capacity]
    omega

open Machine.State in
theorem read (hosts : Hosts bounds below finish pool state words) {constant : Word 8}
    {unread : List (Word 8)} (next : words.constants = constant :: unread) :
    ∃ after, onCursor (pool.read 8) state = .ok constant after ∧
      Hosts bounds below finish pool after ⟨words.words, unread, words.effects⟩ := by
  have finish := hosts.finish
  rw [next, List.length_cons] at finish
  rcases hosts.constants with ⟨rest, ahead⟩
  rw [next, List.flatMap_cons, List.append_assoc] at ahead
  have inside : state.cursor.offset + 8 ≤ pool.length := by
    have whole : pool.bytes.toList.length = pool.length := Array.length_toList
    have count := congrArg List.length ahead
    rw [List.length_append, Word.length_bytes, List.length_drop] at count
    omega
  refine ⟨⟨state.stack, { offset := state.cursor.offset + 8 }, state.effects⟩, ?_, ?_⟩
  · have first : (Word.bytes constant ++ (unread.flatMap Word.bytes ++ rest)).take 8 =
        Word.bytes constant := List.take_left' (Word.length_bytes constant)
    simp only [onCursor, ConstantPool.read_of_le inside, ← ahead, first, Word.ofBytes_bytes]
  · refine { hosts with constants := ⟨rest, ?_⟩, finish := ?_ }
    · change _ = pool.bytes.toList.drop (state.cursor.offset + 8)
      rw [← List.drop_drop, ← ahead, List.drop_left' (Word.length_bytes constant)]
    · change state.cursor.offset + 8 + 8 * unread.length = _
      omega

open Machine.State in
theorem writeLine (hosts : Hosts bounds below finish pool state words) (line : String) :
    Hosted bounds below finish pool (Machine.writeLine line state)
      (writeLine line words) := by
  simp only [Machine.writeLine, onEffects, WordMachine.writeLine, Effects.onSink,
    hosts.sink]
  cases Sink.writeLine line words.effects.sink with
  | ok _ sink => exact .ok { hosts with sink := rfl }
  | error fault sink => exact .error fault { hosts with sink := rfl }

/-! ## Instructions and runs -/

theorem step_arith (hosts : Hosts bounds below finish pool state words) (op : BinOp) :
    Hosted bounds below finish pool (Machine.step pool (.arith op .u64) state)
      (step bounds (.arith op .u64) words) := by
  rcases words with ⟨stackWords, constants, effects⟩
  rcases stackWords with - | ⟨left, - | ⟨right, others⟩⟩
  · exact .lacking not_false
  · exact .lacking not_false
  · rcases hosts.pop rfl with ⟨between, leftPopped, hosts, -⟩
    rcases hosts.pop rfl with ⟨after, rightPopped, hosts, room⟩
    change Hosted bounds below finish pool ((do
      let left ← Machine.State.onStack (Stack.pop 8)
      let right ← Machine.State.onStack (Stack.pop 8)
      let result ← MonadExcept.ofExcept (op.apply left right)
      Machine.State.onStack (Stack.push result)) state) _
    rw [EStateM.bind_of_ok leftPopped, EStateM.bind_of_ok rightPopped]
    cases applied : op.apply left right with
    | error fault =>
        simp only [step, applied]
        exact .error fault hosts
    | ok result =>
        simp only [step, applied]
        rcases hosts.push result room with ⟨last, pushed, hosts⟩
        change Hosted bounds below finish pool
          (Machine.State.onStack (Stack.push result) after) _
        rw [pushed]
        exact .ok hosts

theorem step_readConstant (hosts : Hosts bounds below finish pool state words) :
    Hosted bounds below finish pool (Machine.step pool (.readConstant .u64) state)
      (step bounds (.readConstant .u64) words) := by
  rcases words with ⟨stackWords, constants, effects⟩
  cases constants with
  | nil => exact .lacking not_false
  | cons constant unread =>
      rw [step]
      split
      · rename_i free
        rcases hosts.read rfl with ⟨between, read, hosts⟩
        have room : between.stack.sp + 8 ≤ between.stack.capacity := by
          have depth := hosts.sp_eq
          have enough := hosts.room
          dsimp only at depth free
          omega
        rcases hosts.push constant room with ⟨after, pushed, hosts⟩
        change Hosted bounds below finish pool ((do
          let word ← Machine.State.onCursor (pool.read 8)
          Machine.State.onStack (Stack.push word)) state) _
        rw [EStateM.bind_of_ok read, pushed]
        exact .ok hosts
      · exact .lacking not_false

theorem step_print (hosts : Hosts bounds below finish pool state words) (ty : Ty) :
    Hosted bounds below finish pool (Machine.step pool (.print ty) state)
      (step bounds (.print ty) words) := by
  cases ty with
  | none => exact hosts.writeLine "none"
  | u64 =>
      rcases words with ⟨stackWords, constants, effects⟩
      cases stackWords with
      | nil => exact .lacking not_false
      | cons word others =>
          rcases hosts.pop rfl with ⟨after, popped, hosts, -⟩
          change Hosted bounds below finish pool ((do
            let word ← Machine.State.onStack (Stack.pop 8)
            Machine.writeLine (toString word.toNat)) state) _
          rw [EStateM.bind_of_ok popped]
          exact hosts.writeLine (toString word.toNat)

theorem step (hosts : Hosts bounds below finish pool state words) (instr : Instr) :
    Hosted bounds below finish pool (Machine.step pool instr state)
      (step bounds instr words) := by
  match instr with
  | .readConstant .u64 => exact hosts.step_readConstant
  | .arith op .u64 => exact hosts.step_arith op
  | .print ty => exact hosts.step_print ty

theorem runFrom (hosts : Hosts bounds below finish pool state words) (pc : Nat)
    (code : List Instr) :
    Hosted bounds below finish pool (Machine.runFrom pool pc code state)
      (runFrom bounds pc code words) := by
  induction code generalizing pc state words with
  | nil => exact .ok hosts
  | cons instr rest induction =>
      -- The two record different depths, since only one counts the bytes below.
      let event := Event.exec pc instr state.stack.sp
      let other := Event.exec pc instr (8 * words.words.length)
      have stepped := (hosts.record event other).step instr
      change Hosted bounds below finish pool ((do
        Machine.step pool instr
        Machine.runFrom pool (pc + 1) rest) (state.record event)) _
      generalize reached : Machine.step pool instr (state.record event) = result at stepped
      generalize predicted : WordMachine.step bounds instr (words.record other) = expected
        at stepped
      cases stepped with
      | ok hosts =>
          rw [EStateM.bind_of_ok reached, runFrom_cons_of_ok pc predicted]
          exact induction hosts (pc + 1)
      | error fault hosts =>
          rw [EStateM.bind_of_error reached, runFrom_cons_of_error pc predicted]
          exact .error fault hosts
      | lacking lacks =>
          rw [runFrom_cons_of_error pc predicted]
          exact .lacking lacks

end Hosts

end WordMachine

end ExprMachine

import ExprMachine.Arithmetic
import ExprMachine.Proofs.Word
import ExprMachine.Trace

/-! # The word machine

A machine that knows no bytes. Its operand stack is a list of words, the topmost
first, and its constants are the words that no instruction has read yet. What the
byte machine decides by offsets into a region and a pool is decided here by the
lengths of the two lists. -/

namespace ExprMachine

namespace Word

/-- The words of `size` bytes that lie one after another in `bytes`. Bytes at the
end that are too few for a word are left out. -/
def split (size : Nat) (bytes : List UInt8) : List (Word size) :=
  (List.range (bytes.length / size)).map fun index =>
    ofBytes size ((bytes.drop (size * index)).take size)

variable {size : Nat}

@[simp] theorem length_split (bytes : List UInt8) :
    (split size bytes).length = bytes.length / size := by
  simp [split]

theorem split_of_lt {bytes : List UInt8} (short : bytes.length < size) :
    split size bytes = [] := by
  simp [split, Nat.div_eq_of_lt short]

theorem split_of_le (positive : 0 < size) {bytes : List UInt8}
    (long : size ≤ bytes.length) :
    split size bytes =
      ofBytes size (bytes.take size) :: split size (bytes.drop size) := by
  have count : bytes.length / size = (bytes.drop size).length / size + 1 := by
    rw [List.length_drop, Nat.div_eq_sub_div positive long]
  rw [split, count, List.range_succ_eq_map]
  simp [split, Nat.mul_add, Nat.add_comm]

theorem split_append_bytes (positive : 0 < size) (word : Word size) (rest : List UInt8) :
    split size (bytes word ++ rest) = word :: split size rest := by
  rw [split_of_le positive (by simp)]
  simp

theorem split_flatMap_bytes (positive : 0 < size) (words : List (Word size)) :
    split size (words.flatMap bytes) = words := by
  induction words with
  | nil => exact split_of_lt positive
  | cons word words induction =>
      rw [List.flatMap_cons, split_append_bytes positive, induction]

theorem flatMap_bytes_split (positive : 0 < size) {bytes : List UInt8}
    (whole : size ∣ bytes.length) : (split size bytes).flatMap Word.bytes = bytes := by
  rcases whole with ⟨count, length⟩
  induction count generalizing bytes with
  | zero =>
      rw [List.length_eq_zero_iff.mp length, split_of_lt positive]
      rfl
  | succ count induction =>
      rw [Nat.mul_succ] at length
      have first : (bytes.take size).length = size := by
        rw [List.length_take]
        omega
      have others : (bytes.drop size).length = size * count := by
        rw [List.length_drop]
        omega
      rw [split_of_le positive (by omega), List.flatMap_cons, bytes_ofBytes first,
        induction others, List.take_append_drop]

theorem length_flatMap_bytes (words : List (Word size)) :
    (words.flatMap bytes).length = size * words.length := by
  induction words with
  | nil => rfl
  | cons word words induction =>
      rw [List.flatMap_cons, List.length_append, induction, length_bytes,
        List.length_cons, Nat.mul_succ, Nat.add_comm]

end Word

/-- The fault of a push onto a stack on which no further word fits. -/
def Fault.full (capacity : Nat) : Fault :=
  .stackOverflow (8 * (capacity / 8)) 8 capacity

def Fault.exhausted (poolLength : Nat) : Fault :=
  .corruptPool (8 * (poolLength / 8)) 8 poolLength

namespace WordMachine

/-- How many bytes the operand stack and the pool of constants take. -/
structure Bounds where
  capacity : Nat
  poolLength : Nat

structure State where
  words : List (Word 8)
  constants : List (Word 8)
  effects : Effects

def writeLine (line : String) : EStateM Fault State Unit
  | ⟨words, constants, effects⟩ =>
      match Effects.onSink (Sink.writeLine line) effects with
      | .ok _ effects => .ok () ⟨words, constants, effects⟩
      | .error fault effects => .error fault ⟨words, constants, effects⟩

def step (bounds : Bounds) : Instr → EStateM Fault State Unit
  | .readConstant _, ⟨words, [], effects⟩ =>
      .error (Fault.exhausted bounds.poolLength) ⟨words, [], effects⟩
  | .readConstant _, ⟨words, constant :: constants, effects⟩ =>
      if words.length < bounds.capacity / 8 then
        .ok () ⟨constant :: words, constants, effects⟩
      else
        .error (Fault.full bounds.capacity) ⟨words, constants, effects⟩
  | .arith op _, ⟨left :: right :: words, constants, effects⟩ =>
      match op.apply left right with
      | .ok result => .ok () ⟨result :: words, constants, effects⟩
      | .error fault => .error fault ⟨words, constants, effects⟩
  | .arith _ _, state => .error (.stackUnderflow 0 8) state
  | .print .none, state => writeLine "none" state
  | .print .u64, ⟨word :: words, constants, effects⟩ =>
      writeLine (toString word.toNat) ⟨words, constants, effects⟩
  | .print .u64, state => .error (.stackUnderflow 0 8) state

def State.record (event : Event) : State → State
  | ⟨words, constants, effects⟩ => ⟨words, constants, effects.record event⟩

def runFrom (bounds : Bounds) (pc : Nat) : List Instr → EStateM Fault State Unit
  | [], state => .ok () state
  | instr :: rest, state =>
      match step bounds instr (state.record (.exec pc instr (8 * state.words.length))) with
      | .ok _ after => runFrom bounds (pc + 1) rest after
      | .error fault after => .error fault after

/-- Runs code on an empty stack. The event at the end counts bytes, as the byte
machine does. -/
def run (bounds : Bounds) (constants : List (Word 8)) (code : List Instr) :
    EStateM Fault Effects Unit := fun effects =>
  match runFrom bounds 0 code ⟨[], constants, effects⟩ with
  | .error fault after => .error fault after.effects
  | .ok _ after =>
      let constantsRead := constants.length - after.constants.length
      .ok () (after.effects.record
        (.finished code.length (8 * after.words.length) (8 * constantsRead)))

variable {bounds : Bounds} {instr : Instr} {rest : List Instr} {state after : State}

theorem runFrom_cons_of_ok (pc : Nat)
    (stepped : step bounds instr (state.record (.exec pc instr (8 * state.words.length))) =
      .ok () after) :
    runFrom bounds pc (instr :: rest) state = runFrom bounds (pc + 1) rest after := by
  rw [runFrom, stepped]

theorem runFrom_cons_of_error {fault : Fault} (pc : Nat)
    (stepped : step bounds instr (state.record (.exec pc instr (8 * state.words.length))) =
      .error fault after) :
    runFrom bounds pc (instr :: rest) state = .error fault after := by
  rw [runFrom, stepped]

end WordMachine

end ExprMachine

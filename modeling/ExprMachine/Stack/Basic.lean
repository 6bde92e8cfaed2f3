import ExprMachine.Fault
import ExprMachine.Region
import ExprMachine.Word

/-! The operand stack: a region of fixed capacity and the offset up to which it
is in use. Words of any size are pushed and popped. A pop takes the topmost
bytes, however they came there; the bytes it uncovers at and above `sp` stay in
the region and mean nothing. -/

namespace ExprMachine

structure Stack where
  region : Region
  sp : Nat
  sp_le_size : sp ≤ region.size

namespace Stack

variable {size : Nat}

def capacity (stack : Stack) : Nat :=
  stack.region.size

/-- The bytes in use, the oldest first. -/
def live (stack : Stack) : List UInt8 :=
  stack.region.toList.take stack.sp

def allocate (memory capacity : Nat) : Except Fault Stack :=
  if capacity ≤ memory then
    .ok { region := Region.zeroed capacity, sp := 0, sp_le_size := Nat.zero_le _ }
  else
    .error (.stackAllocation capacity)

/-! Room and depth are looked at before anything moves, so a push or a pop that
fails leaves the stack as it was. -/

def push (word : Word size) : EStateM Fault Stack Unit := fun ⟨region, sp, sp_le_size⟩ =>
  if room : sp + size ≤ region.size then
    .ok () ⟨region.store sp (Word.bytes word), sp + size, by simpa using room⟩
  else
    .error (.stackOverflow sp size region.size) ⟨region, sp, sp_le_size⟩

def pop (size : Nat) : EStateM Fault Stack (Word size) := fun ⟨region, sp, sp_le_size⟩ =>
  if size ≤ sp then
    .ok (Word.ofBytes size (region.load (sp - size) size))
      ⟨region, sp - size, Nat.le_trans (Nat.sub_le sp size) sp_le_size⟩
  else
    .error (.stackUnderflow sp size) ⟨region, sp, sp_le_size⟩

/-! ## The stack as a list of bytes -/

@[simp] theorem length_live (stack : Stack) : stack.live.length = stack.sp := by
  simp [live, Nat.min_eq_left stack.sp_le_size]

theorem push_of_room {stack : Stack} (word : Word size)
    (room : stack.sp + size ≤ stack.capacity) :
    ∃ after, push word stack = .ok () after ∧
      after.live = stack.live ++ Word.bytes word ∧ after.capacity = stack.capacity := by
  obtain ⟨region, sp, sp_le_size⟩ := stack
  simp only [capacity] at room
  refine ⟨_, dif_pos room, ?_, Region.size_store ..⟩
  have before : min sp region.size = sp := Nat.min_eq_left sp_le_size
  rw [live, live, Region.toList_store (by simpa using room), List.take_append_of_le_length,
    List.take_of_length_le] <;> simp [before]

theorem push_of_full {stack : Stack} (word : Word size)
    (full : stack.capacity < stack.sp + size) :
    push word stack = .error (.stackOverflow stack.sp size stack.capacity) stack := by
  obtain ⟨region, sp, sp_le_size⟩ := stack
  exact dif_neg (Nat.not_le.mpr full)

theorem pop_of_le {stack : Stack} (depth : size ≤ stack.sp) :
    ∃ after, pop size stack =
        .ok (Word.ofBytes size (stack.live.drop (stack.sp - size))) after ∧
      after.live = stack.live.take (stack.sp - size) ∧ after.capacity = stack.capacity := by
  obtain ⟨region, sp, sp_le_size⟩ := stack
  simp only at depth
  refine ⟨⟨region, sp - size, by omega⟩, (if_pos depth).trans ?_, ?_, rfl⟩
  · simp only [live, Region.load_eq_take_drop, List.drop_take]
    rw [show sp - (sp - size) = size by omega]
  · simp only [live, List.take_take]
    rw [show min (sp - size) sp = sp - size by omega]

theorem pop_of_lt {stack : Stack} (shallow : stack.sp < size) :
    pop size stack = .error (.stackUnderflow stack.sp size) stack := by
  obtain ⟨region, sp, sp_le_size⟩ := stack
  exact if_neg (Nat.not_le.mpr shallow)

end Stack

end ExprMachine

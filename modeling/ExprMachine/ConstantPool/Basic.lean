import ExprMachine.Fault
import ExprMachine.Word

/-! The constants of a program, packed as bytes in the order in which they were
added, and the cursors that read them back. -/

namespace ExprMachine

structure ConstantPool where
  bytes : Array UInt8 := #[]
deriving DecidableEq

/-- A place in a pool. Reading only ever moves it forward. -/
structure Cursor where
  offset : Nat := 0
deriving DecidableEq

structure Constant where
  size : Nat
  word : Word size

namespace ConstantPool

variable {size : Nat}

def length (pool : ConstantPool) : Nat :=
  pool.bytes.size

/-- Appends the bytes of a word. The number is the offset at which they start. -/
def push (pool : ConstantPool) (word : Word size) : Nat × ConstantPool :=
  (pool.length, { bytes := pool.bytes ++ Word.bytes word })

def pushAll (pool : ConstantPool) : List Constant → List (Nat × ConstantPool)
  | [] => []
  | constant :: rest =>
      let pushed := pool.push constant.word
      pushed :: pushed.2.pushAll rest

def extend (pool : ConstantPool) (constants : List Constant) : ConstantPool :=
  constants.foldl (fun extended constant => (extended.push constant.word).2) pool

def truncate (pool : ConstantPool) (count : Nat) : ConstantPool :=
  { bytes := pool.bytes.extract 0 count }

/-- Reads the next word. A read that fails leaves the cursor where it was. -/
def read (pool : ConstantPool) (size : Nat) : EStateM Fault Cursor (Word size) := fun cursor =>
  if cursor.offset + size ≤ pool.length then
    .ok (Word.ofBytes size (pool.bytes.extract cursor.offset (cursor.offset + size)).toList)
      { offset := cursor.offset + size }
  else
    .error (.corruptPool cursor.offset size pool.length) cursor

/-! ## The pool as a list of bytes -/

@[simp] theorem toList_bytes_push (pool : ConstantPool) (word : Word size) :
    (pool.push word).2.bytes.toList = pool.bytes.toList ++ Word.bytes word := by
  simp [push]

@[simp] theorem length_push (pool : ConstantPool) (word : Word size) :
    (pool.push word).2.length = pool.length + size := by
  simp [push, length, ← Array.length_toList]

@[simp] theorem toList_bytes_truncate (pool : ConstantPool) (count : Nat) :
    (pool.truncate count).bytes.toList = pool.bytes.toList.take count := by
  simp [truncate, List.extract_eq_take_drop]

theorem read_of_le {pool : ConstantPool} {cursor : Cursor}
    (inside : cursor.offset + size ≤ pool.length) :
    pool.read size cursor =
      .ok (Word.ofBytes size ((pool.bytes.toList.drop cursor.offset).take size))
        { offset := cursor.offset + size } := by
  simp [read, inside, List.extract_eq_take_drop]

theorem read_of_lt {pool : ConstantPool} {cursor : Cursor}
    (outside : pool.length < cursor.offset + size) :
    pool.read size cursor =
      .error (.corruptPool cursor.offset size pool.length) cursor := by
  simp [read, Nat.not_le.mpr outside]

end ConstantPool

end ExprMachine

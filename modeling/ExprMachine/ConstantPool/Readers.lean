import ExprMachine.ConstantPool.Basic

/-! Several cursors over one pool, numbered from zero, each moving on its own. A
further cursor starts at the front of the pool, or where the one that it is a
clone of stands. Each reply tells where the cursor in question stands now. -/

namespace ExprMachine.ConstantPool

abbrev Readers := Array Cursor

inductive Request where
  | read (size cursor : Nat)
  | new
  | clone (cursor : Nat)

inductive Reply where
  | word (result : Except Fault Nat) (offset : Nat)
  | cursor (number offset : Nat)

def Readers.add (readers : Readers) (cursor : Cursor) : Reply × Readers :=
  (.cursor readers.size cursor.offset, readers.push cursor)

def answer (pool : ConstantPool) (readers : Readers) : Request → Option (Reply × Readers)
  | .read size number => do
      let cursor ← readers[number]?
      match pool.read size cursor with
      | .ok word moved =>
          return (.word (.ok word.toNat) moved.offset, readers.setIfInBounds number moved)
      | .error fault moved =>
          return (.word (.error fault) moved.offset, readers.setIfInBounds number moved)
  | .new => return readers.add {}
  | .clone number => do
      let cursor ← readers[number]?
      return readers.add cursor

def answerAll (pool : ConstantPool) : Readers → List Request → Option (List Reply)
  | _, [] => some []
  | readers, request :: rest => do
      let (reply, moved) ← pool.answer readers request
      let replies ← pool.answerAll moved rest
      return reply :: replies

end ExprMachine.ConstantPool

import ExprMachine.ConstantPool.Readers
import ExprMachine.Proofs.Sequencing
import ExprMachine.Proofs.Word

/-! # The pool as a list of bytes

A pool is the bytes of its constants in a row, and nothing in it tells where one of them
ends. Read in the sizes in which they were added, the constants come back; other sizes cut
the same bytes up at other places. A cursor is no more than a place in the row, and what
one cursor does is nothing to the others. -/

namespace ExprMachine.ConstantPool

theorem length_toList_bytes (pool : ConstantPool) : pool.bytes.toList.length = pool.length :=
  Array.length_toList

/-! ## Adding constants -/

/-- The bytes of the constants in a row. -/
def packed (constants : List Constant) : List UInt8 :=
  constants.flatMap fun constant => littleEndian constant.size constant.word.toNat

theorem packed_cons (constant : Constant) (constants : List Constant) :
    packed (constant :: constants) =
      littleEndian constant.size constant.word.toNat ++ packed constants :=
  List.flatMap_cons

theorem extend_cons (pool : ConstantPool) (constant : Constant) (constants : List Constant) :
    pool.extend (constant :: constants) = (pool.push constant.word).2.extend constants := rfl

theorem toList_bytes_extend (pool : ConstantPool) (constants : List Constant) :
    (pool.extend constants).bytes.toList = pool.bytes.toList ++ packed constants := by
  induction constants generalizing pool with
  | nil => exact (List.append_nil _).symm
  | cons constant constants induction =>
      rw [extend_cons, induction, toList_bytes_push, packed_cons, List.append_assoc,
        Word.bytes]

theorem pushAll_eq_mapIdx (pool : ConstantPool) (constants : List Constant) :
    pool.pushAll constants = constants.mapIdx fun index _ =>
      ((pool.extend (constants.take index)).length,
        pool.extend (constants.take (index + 1))) := by
  induction constants generalizing pool with
  | nil => rfl
  | cons constant constants induction =>
      rw [pushAll, List.mapIdx_cons, induction]
      rfl

/-! ## Reading them back -/

def readAll (pool : ConstantPool) : List Nat → EStateM Fault Cursor (List Constant)
  | [] => return []
  | size :: sizes => do
      let word ← pool.read size
      let constants ← pool.readAll sizes
      return ⟨size, word⟩ :: constants

theorem readAll_packed {pool : ConstantPool} {before after : List UInt8}
    {constants : List Constant}
    (stored : pool.bytes.toList = before ++ packed constants ++ after) :
    pool.readAll (constants.map (·.size)) { offset := before.length } =
      .ok constants { offset := before.length + (packed constants).length } := by
  induction constants generalizing before with
  | nil => rfl
  | cons constant constants induction =>
      rcases constant with ⟨size, word⟩
      rw [packed_cons, ← List.append_assoc] at stored
      have inside : before.length + size ≤ pool.length := by
        rw [← length_toList_bytes, stored]
        simp only [List.length_append, length_littleEndian]
        omega
      have found : (pool.bytes.toList.drop before.length).take size = Word.bytes word := by
        rw [stored, List.append_assoc, List.append_assoc, List.drop_left,
          List.take_left' (length_littleEndian size word.toNat), Word.bytes]
      -- To the constants that follow, this one belongs to what stands before.
      have next := induction stored
      rw [List.length_append, length_littleEndian] at next
      rw [List.map_cons, readAll, EStateM.bind_of_ok (read_of_le inside), found,
        Word.ofBytes_bytes, EStateM.bind_of_ok next, packed_cons, List.length_append,
        length_littleEndian, Nat.add_assoc]
      rfl

/-! ## Several cursors -/

def Readers.offsets (readers : Readers) : List Nat :=
  readers.toList.map (·.offset)

/-- Answers a request from the bytes alone, for cursors that stand at the offsets. -/
def answerAt (bytes : List UInt8) (offsets : List Nat) :
    Request → Option (Reply × List Nat)
  | .read size number => do
      let offset ← offsets[number]?
      if offset + size ≤ bytes.length then
        let word := ofLittleEndian ((bytes.drop offset).take size)
        return (.word (.ok word) (offset + size), offsets.set number (offset + size))
      else
        return (.word (.error (.corruptPool offset size bytes.length)) offset, offsets)
  | .new => return (.cursor offsets.length 0, offsets ++ [0])
  | .clone number => do
      let offset ← offsets[number]?
      return (.cursor offsets.length offset, offsets ++ [offset])

def answerAllAt (bytes : List UInt8) : List Nat → List Request → Option (List Reply)
  | _, [] => some []
  | offsets, request :: rest => do
      let (reply, moved) ← answerAt bytes offsets request
      let replies ← answerAllAt bytes moved rest
      return reply :: replies

namespace Readers

variable {readers : Readers} {number : Nat} {cursor : Cursor}

theorem getElem?_offsets (readers : Readers) (number : Nat) :
    readers.offsets[number]? = readers[number]?.map (·.offset) := by
  rw [offsets, List.getElem?_map, Array.getElem?_toList]

theorem length_offsets (readers : Readers) : readers.offsets.length = readers.size := by
  rw [offsets, List.length_map, Array.length_toList]

theorem offsets_push (readers : Readers) (cursor : Cursor) :
    offsets (readers.push cursor) = readers.offsets ++ [cursor.offset] := by
  rw [offsets, Array.toList_push, List.map_append, List.map_singleton, offsets]

theorem offsets_set (readers : Readers) (number : Nat) (cursor : Cursor) :
    offsets (readers.setIfInBounds number cursor) =
      readers.offsets.set number cursor.offset := by
  rw [offsets, Array.toList_setIfInBounds, List.map_set, offsets]

theorem set_same (found : readers[number]? = some cursor) :
    readers.setIfInBounds number cursor = readers := by
  apply Array.ext_getElem?
  intro other
  rw [Array.getElem?_setIfInBounds]
  split
  · rename_i same
    have inside := (Array.getElem?_eq_some_iff.mp found).1
    rw [if_pos inside, ← same, found]
  · rfl

end Readers

section

variable {pool : ConstantPool} {readers : Readers} {cursor : Cursor} {size number : Nat}

theorem answer_read_of_le (found : readers[number]? = some cursor)
    (inside : cursor.offset + size ≤ pool.length) :
    pool.answer readers (.read size number) =
      some (.word (.ok (ofLittleEndian ((pool.bytes.toList.drop cursor.offset).take size)))
          (cursor.offset + size),
        readers.setIfInBounds number { offset := cursor.offset + size }) := by
  have length : ((pool.bytes.toList.drop cursor.offset).take size).length = size := by
    rw [List.length_take, List.length_drop, length_toList_bytes]
    omega
  rw [answer, found, ← Word.toNat_ofBytes length]
  simp only [read_of_le inside, bind, Option.bind, pure]

theorem answer_read_of_lt (found : readers[number]? = some cursor)
    (outside : pool.length < cursor.offset + size) :
    pool.answer readers (.read size number) =
      some (.word (.error (.corruptPool cursor.offset size pool.length)) cursor.offset,
        readers) := by
  rw [answer, found]
  simp only [read_of_lt outside, bind, Option.bind, pure, Readers.set_same found]

theorem answer_read_of_none (missing : readers[number]? = none) :
    pool.answer readers (.read size number) = none := by
  rw [answer, missing]
  rfl

end

theorem answer_eq_answerAt (pool : ConstantPool) (readers : Readers) (request : Request) :
    (pool.answer readers request).map (fun (reply, moved) => (reply, moved.offsets)) =
      answerAt pool.bytes.toList readers.offsets request := by
  cases request with
  | read size number =>
      rw [answerAt, Readers.getElem?_offsets, length_toList_bytes]
      cases found : readers[number]? with
      | none =>
          rw [answer_read_of_none found]
          rfl
      | some cursor =>
          by_cases inside : cursor.offset + size ≤ pool.length
          · simp only [answer_read_of_le found inside, Option.map_some, Readers.offsets_set]
            exact (if_pos inside).symm
          · rw [answer_read_of_lt found (Nat.not_le.mp inside)]
            exact (if_neg inside).symm
  | new =>
      rw [answer, answerAt, Readers.add, Readers.length_offsets]
      exact congrArg (fun moved => some (_, moved)) (Readers.offsets_push readers {})
  | clone number =>
      rw [answer, answerAt, Readers.getElem?_offsets]
      cases found : readers[number]? with
      | none => rfl
      | some cursor =>
          rw [Readers.length_offsets]
          exact congrArg (fun moved => some (_, moved)) (Readers.offsets_push readers cursor)

theorem answerAll_eq_answerAllAt (pool : ConstantPool) (readers : Readers)
    (requests : List Request) :
    pool.answerAll readers requests =
      answerAllAt pool.bytes.toList readers.offsets requests := by
  induction requests generalizing readers with
  | nil => rfl
  | cons request rest induction =>
      rw [answerAll, answerAllAt, ← answer_eq_answerAt]
      cases pool.answer readers request with
      | none => rfl
      | some answered =>
          rcases answered with ⟨reply, moved⟩
          exact congrArg (fun replies => Option.bind replies _) (induction moved)

/-! ## One cursor among others -/

def Request.readsWith (number : Nat) : Request → Bool
  | .read _ other => other = number
  | .new | .clone _ => false

theorem Request.exists_eq_read_of_readsWith {request : Request} {number : Nat}
    (reads : request.readsWith number = true) : ∃ size, request = .read size number := by
  cases request with
  | read size other =>
      cases of_decide_eq_true reads
      exact ⟨size, rfl⟩
  | new => cases reads
  | clone original => cases reads

section

variable {pool : ConstantPool} {readers others moved : Readers} {cursor : Cursor}
variable {request : Request} {reply : Reply} {number : Nat}

theorem exists_answer_read (pool : ConstantPool) (size : Nat) (cursor : Cursor) :
    ∃ reply after, ∀ (readers : Readers) (number : Nat), readers[number]? = some cursor →
      pool.answer readers (.read size number) =
        some (reply, readers.setIfInBounds number after) := by
  cases read : pool.read size cursor with
  | ok word after =>
      refine ⟨.word (.ok word.toNat) after.offset, after, ?_⟩
      intro readers number found
      simp only [answer, found, read, bind, Option.bind, pure]
  | error fault after =>
      refine ⟨.word (.error fault) after.offset, after, ?_⟩
      intro readers number found
      simp only [answer, found, read, bind, Option.bind, pure]

theorem Readers.getElem?_set_self (found : readers[number]? = some cursor)
    (after : Cursor) : (readers.setIfInBounds number after)[number]? = some after := by
  have inside := (Array.getElem?_eq_some_iff.mp found).1
  rw [Array.getElem?_setIfInBounds, if_pos rfl, if_pos inside]

theorem Readers.getElem?_push_of_some (found : readers[number]? = some cursor)
    (more : Cursor) : (readers.push more)[number]? = some cursor := by
  have inside := (Array.getElem?_eq_some_iff.mp found).1
  rw [Array.getElem?_push, if_neg (Nat.ne_of_lt inside), found]

theorem getElem?_of_answer (answered : pool.answer readers request = some (reply, moved))
    (other : request.readsWith number = false) (found : readers[number]? = some cursor) :
    moved[number]? = some cursor := by
  cases request with
  | read size reading =>
      have different : reading ≠ number := of_decide_eq_false other
      cases reads : readers[reading]? with
      | none =>
          rw [answer_read_of_none reads] at answered
          cases answered
      | some reader =>
          rcases exists_answer_read pool size reader with ⟨_, after, answers⟩
          rw [answers readers reading reads] at answered
          cases answered
          rw [Array.getElem?_setIfInBounds_ne different, found]
  | new =>
      cases answered
      exact Readers.getElem?_push_of_some found {}
  | clone original =>
      rw [answer] at answered
      rcases Option.bind_eq_some_iff.mp answered with ⟨reader, -, added⟩
      cases added
      exact Readers.getElem?_push_of_some found reader

theorem answerAll_cons_eq_some_iff {rest : List Request} {replies : List Reply} :
    pool.answerAll readers (request :: rest) = some replies ↔
      ∃ reply moved restReplies, pool.answer readers request = some (reply, moved) ∧
        pool.answerAll moved rest = some restReplies ∧ reply :: restReplies = replies := by
  simp [answerAll, Option.bind_eq_some_iff]

/-- All requests but the reads with one cursor may as well not have been made. -/
theorem answerAll_filter {requests : List Request} {replies : List Reply}
    (answered : pool.answerAll readers requests = some replies)
    (found : readers[number]? = some cursor) (same : others[number]? = some cursor) :
    pool.answerAll others (requests.filter (·.readsWith number)) =
      some (((requests.zip replies).filter (·.1.readsWith number)).map (·.2)) := by
  -- The two sets of cursors need not have more in common than where this one stands.
  induction requests generalizing readers others cursor replies with
  | nil => rfl
  | cons request rest induction =>
      rcases answerAll_cons_eq_some_iff.mp answered with
        ⟨reply, moved, restReplies, first, restAnswered, rfl⟩
      cases reads : request.readsWith number with
      | false =>
          have kept := getElem?_of_answer first reads found
          simpa [reads] using induction restAnswered kept same
      | true =>
          rcases Request.exists_eq_read_of_readsWith reads with ⟨size, rfl⟩
          rcases exists_answer_read pool size cursor with ⟨_, after, answers⟩
          cases first.symm.trans (answers readers number found)
          have without := induction restAnswered (Readers.getElem?_set_self found after)
            (Readers.getElem?_set_self same after)
          simp only [List.filter_cons, List.zip_cons_cons, reads, if_true, List.map_cons]
          exact answerAll_cons_eq_some_iff.mpr
            ⟨_, _, _, answers others number same, without, rfl⟩

end

/-- A push gives out the length of the pool, and puts as many bytes at its end as the word
has. What was pushed is there to be read from the place of the first push on, up to the end.
Cursors, wherever they come from, read what stands at their places and move on by as much,
or they stay if that would lead past the end; none of them is in the way of another. -/
theorem extend_refines_bytes (pool : ConstantPool) (constants : List Constant) :
    (pool.extend constants).bytes.toList = pool.bytes.toList ++ packed constants ∧
      (pool.pushAll constants = constants.mapIdx fun index _ =>
        ((pool.extend (constants.take index)).length,
          pool.extend (constants.take (index + 1)))) ∧
      (pool.extend constants).readAll (constants.map (·.size)) { offset := pool.length } =
        .ok constants { offset := (pool.extend constants).length } ∧
      (∀ readers requests,
        pool.answerAll readers requests =
          answerAllAt pool.bytes.toList readers.offsets requests) ∧
      ∀ readers requests replies number, number < readers.size →
        pool.answerAll readers requests = some replies →
          pool.answerAll readers (requests.filter (·.readsWith number)) =
            some (((requests.zip replies).filter (·.1.readsWith number)).map (·.2)) := by
  have bytes := toList_bytes_extend pool constants
  refine ⟨bytes, pushAll_eq_mapIdx pool constants, ?_, answerAll_eq_answerAllAt pool, ?_⟩
  · have stored := bytes.trans (List.append_nil _).symm
    have read := readAll_packed stored
    rwa [← List.length_append, ← bytes] at read
  · intro readers requests replies number inside answered
    have found := Array.getElem?_eq_getElem inside
    exact answerAll_filter answered found found

/-- The clone reads two and a half of the words as one and comes to the end too early. That
is nothing to the first cursor, which goes on from where it was cloned. -/
theorem extend_refines_bytes_mixed_sizes :
    let pool : ConstantPool := { bytes := #[0xaa] }
    let constants : List Constant := [⟨2, 0x0201#16⟩, ⟨1, 0x03#8⟩, ⟨4, 0x07060504#32⟩]
    let extended := pool.extend constants
    let requests : List Request :=
      [.read 1 0, .clone 0, .read 4 1, .read 4 1, .new, .read 2 0, .read 8 2]
    (pool.pushAll constants).map (·.1) = [1, 3, 4] ∧
      extended.readAll [2, 1, 4] { offset := 1 } = .ok constants { offset := 8 } ∧
      extended.answerAll #[{}] requests =
        some [.word (.ok 0xaa) 1, .cursor 1 1, .word (.ok 0x04030201) 5,
          .word (.error (.corruptPool 5 4 8)) 5, .cursor 2 0, .word (.ok 0x0201) 3,
          .word (.ok 0x07060504030201aa) 8] ∧
      extended.answerAll #[{}] [.read 1 0, .read 2 0] =
        some [.word (.ok 0xaa) 1, .word (.ok 0x0201) 3] := by
  intro pool constants extended requests
  rcases extend_refines_bytes pool constants with ⟨-, offsets, read, -⟩
  rcases extend_refines_bytes extended [] with ⟨-, -, -, answers, alone⟩
  have replies := answers #[{}] requests
  refine ⟨?_, read, replies, alone #[{}] requests _ 0 (by decide) replies⟩
  rw [offsets]
  rfl

end ExprMachine.ConstantPool

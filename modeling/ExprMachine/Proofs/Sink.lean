import ExprMachine.Proofs.Sequencing
import ExprMachine.Session
import ExprMachine.Sink

/-! # Output in parts

A text can be written in parts or at once, and a sink ends up the same, also if it is
full before the text has come to its end. So an action that does nothing but write
amounts to a single write and an answer, and a limit only cuts its output off. -/

namespace ExprMachine.Sink

/-- The beginning of the text, as long as there is room for. -/
def cut (room : Nat) (text : String) : String :=
  String.ofList (text.toList.take room)

variable {first second text printed : String} {room limit : Nat}

theorem cut_of_le (fits : text.length ≤ room) : cut room text = text := by
  rw [cut, List.take_of_length_le (by rwa [String.length_toList]), String.ofList_toList]

theorem cut_append :
    cut room (first ++ second) = cut room first ++ cut (room - first.length) second := by
  rw [cut, cut, cut, String.toList_append, List.take_append, String.ofList_append,
    String.length_toList]

theorem write_of_fits (fits : printed.length ≤ room) (text : String) :
    write printed ⟨text, some room⟩ =
      .ok () ⟨text ++ printed, some (room - printed.length)⟩ :=
  if_pos fits

theorem write_of_full (full : room < printed.length) (text : String) :
    write printed ⟨text, some room⟩ = .error .output ⟨text ++ cut room printed, some 0⟩ :=
  if_neg (Nat.not_le.mpr full)

theorem outcome_write_room (text printed : String) (room : Nat) :
    outcome (write printed ⟨text, some room⟩) =
      (if printed.length ≤ room then .ok () else .error .output,
        ⟨text ++ cut room printed, some (room - printed.length)⟩) := by
  by_cases fits : printed.length ≤ room
  · rw [write_of_fits fits, if_pos fits, cut_of_le fits]
    rfl
  · have full := Nat.not_le.mp fits
    rw [write_of_full full, if_neg fits, Nat.sub_eq_zero_of_le (Nat.le_of_lt full)]
    rfl

/-- The sink that has room for `limit` characters in all, after the text was put into it. -/
def limited (limit : Nat) (text : String) : Sink :=
  ⟨cut limit text, some (limit - text.length)⟩

theorem text_limited (limit : Nat) (text : String) :
    (limited limit text).text = cut limit text := rfl

theorem outcome_write_limited (limit : Nat) (text printed : String) :
    outcome (write printed (limited limit text)) =
      (if printed.length ≤ limit - text.length then .ok () else .error .output,
        limited limit (text ++ printed)) := by
  rw [limited, limited, outcome_write_room, cut_append, Nat.sub_sub, String.length_append]

theorem limited_of_le (fits : text.length ≤ limit) :
    limited limit text = ⟨text, some (limit - text.length)⟩ := by
  rw [limited, cut_of_le fits]

theorem limited_append (first second : String) (limit : Nat) :
    limited (first.length + limit) (first ++ second) =
      ⟨first ++ cut limit second, some (limit - second.length)⟩ := by
  rw [limited, cut_append, cut_of_le (Nat.le_add_right first.length limit),
    String.length_append, Nat.add_sub_cancel_left, Nat.add_sub_add_left]

theorem limited_eq_of_prefix (more : first.toList <+: second.toList)
    (full : limit ≤ first.length) : limited limit second = limited limit first := by
  rcases more with ⟨rest, same⟩
  rw [← String.length_toList] at full
  have longer : limit ≤ second.toList.length := by
    rw [← same, List.length_append]
    exact Nat.le_add_right_of_le full
  rw [limited, limited, cut, cut, ← same, List.take_append_of_le_length full,
    ← String.length_toList, ← String.length_toList, Nat.sub_eq_zero_of_le full,
    Nat.sub_eq_zero_of_le longer]

theorem text_prefix_write (printed : String) (sink : Sink) :
    sink.text.toList <+: (outcome (write printed sink)).2.text.toList := by
  have grown : ∃ more, (outcome (write printed sink)).2.text = sink.text ++ more := by
    rcases sink with ⟨text, _ | room⟩
    · exact ⟨printed, rfl⟩
    · rw [outcome_write_room]
      exact ⟨cut room printed, rfl⟩
  rcases grown with ⟨more, same⟩
  rw [same, String.toList_append]
  exact List.prefix_append _ _

theorem write_append (first second : String) :
    write (first ++ second) = (do
      write first
      write second) := by
  funext sink
  rcases sink with ⟨text, _ | room⟩
  · change EStateM.Result.ok () _ = EStateM.Result.ok () _
    rw [String.append_assoc]
  · by_cases fits : first.length ≤ room
    · rw [EStateM.bind_of_ok (write_of_fits fits text)]
      by_cases bothFit : first.length + second.length ≤ room
      · have secondFits : second.length ≤ room - first.length := by omega
        rw [write_of_fits (by rwa [String.length_append]), write_of_fits secondFits,
          String.length_append, String.append_assoc, Nat.sub_sub]
      · have secondFull : room - first.length < second.length := by omega
        have full := Nat.not_le.mp bothFit
        rw [write_of_full (by rwa [String.length_append]), write_of_full secondFull,
          cut_append, cut_of_le fits, String.append_assoc]
    · -- The first part has filled the sink, so nothing of the second is stored.
      have firstFull := Nat.not_le.mp fits
      have full : room < (first ++ second).length := by
        rw [String.length_append]
        omega
      have nothing : cut (room - first.length) second = "" := by
        rw [Nat.sub_eq_zero_of_le (Nat.le_of_lt firstFull)]
        rfl
      rw [EStateM.bind_of_error (write_of_full firstFull text), write_of_full full,
        cut_append, nothing, String.append_empty]

theorem write_empty : write "" = pure () := by
  funext sink
  rcases sink with ⟨text, _ | room⟩
  · change EStateM.Result.ok () _ = EStateM.Result.ok () _
    rw [String.append_empty]
  · rw [write_of_fits (Nat.zero_le room), String.append_empty]
    rfl

/-! ## Actions that only write -/

variable {α β : Type} {action : EStateM Fault Sink α} {next : α → EStateM Fault Sink β}

/-- The action writes the text, as far as it can, and if all of it has been written it
ends with the answer. -/
def Prints (action : EStateM Fault Sink α) (printed : String) (answer : Except Fault α) :
    Prop :=
  action = do
    write printed
    MonadExcept.ofExcept answer

theorem prints_pure (value : α) : Prints (pure value) "" (.ok value) := by
  rw [Prints, write_empty]
  rfl

theorem prints_throw (fault : Fault) :
    Prints (throw fault : EStateM Fault Sink α) "" (.error fault) := by
  rw [Prints, write_empty]
  rfl

theorem prints_writeLine (line : String) : Prints (writeLine line) (line ++ "\n") (.ok ()) :=
  (bind_pure (writeLine line)).symm

theorem Prints.bind_of_ok {value : α} {more : String} {answer : Except Fault β}
    (prints : Prints action printed (.ok value))
    (nextPrints : Prints (next value) more answer) :
    Prints (action >>= next) (printed ++ more) answer := by
  rw [Prints, prints, write_append, bind_assoc, bind_assoc, ← nextPrints]
  rfl

theorem Prints.bind_of_error {fault : Fault}
    (prints : Prints action printed (.error fault)) :
    Prints (action >>= next) printed (.error fault) := by
  rw [Prints, prints, bind_assoc]
  rfl

theorem exists_prints_bind (prints : ∃ printed answer, Prints action printed answer)
    (nextPrints : ∀ value, ∃ printed answer, Prints (next value) printed answer) :
    ∃ printed answer, Prints (action >>= next) printed answer := by
  rcases prints with ⟨printed, _ | value, prints⟩
  · exact ⟨_, _, prints.bind_of_error⟩
  · rcases nextPrints value with ⟨more, answer, nextPrints⟩
    exact ⟨_, _, prints.bind_of_ok nextPrints⟩

end ExprMachine.Sink

import ExprMachine.Proofs.Backend.Output

/-! # Runs that share a limited sink

What a run prints does not depend on the sink that it prints into. So runs one after
another leave in a sink with a limit the beginning of what all of them print, each on its
own, and for want of room only those fail that have something to print. -/

namespace ExprMachine

namespace Backend

/-- What becomes of an answer when the output that belongs to it is written. -/
def deliver (answer : Except RunError Unit) (printed : String) (sink : Sink) :
    Except RunError Unit × Sink :=
  match outcome (Sink.write printed sink) with
  | (.ok _, after) => (answer, after)
  | (.error fault, after) => (.error (.runtime fault), after)

theorem deliver_empty (answer : Except RunError Unit) (sink : Sink) :
    deliver answer "" sink = (answer, sink) := by
  rw [deliver, Sink.write_empty]
  rfl

theorem deliver_unlimited (answer : Except RunError Unit) (printed text : String) :
    deliver answer printed { text } = (answer, { text := text ++ printed }) := rfl

theorem deliver_limited (answer : Except RunError Unit) (printed : String) (limit : Nat)
    (before : String) :
    deliver answer printed (Sink.limited limit before) =
      (if printed.length ≤ limit - before.length then answer else .error (.runtime .output),
        Sink.limited limit (before ++ printed)) := by
  rw [deliver, Sink.outcome_write_limited]
  by_cases fits : printed.length ≤ limit - before.length
  · rw [if_pos fits, if_pos fits]
  · rw [if_neg fits, if_neg fits]

theorem exists_settle_eq_deliver {α : Type} {action : EStateM Fault Sink α}
    (prints : ∃ printed answer, Sink.Prints action printed answer) :
    ∃ answer printed, ∀ sink, settle (action sink) = deliver answer printed sink := by
  rcases prints with ⟨printed, answer, prints⟩
  refine ⟨(answer.map fun _ => ()).mapError .runtime, printed, fun sink => ?_⟩
  rw [prints, deliver]
  cases written : Sink.write printed sink with
  | error fault after =>
      rw [EStateM.bind_of_error written]
      rfl
  | ok _ after =>
      rw [EStateM.bind_of_ok written]
      cases answer <;> rfl

theorem exists_visible_eq_deliver (backend : Backend) (expr : Expr)
    (resources : Resources) :
    ∃ answer printed, ∀ effects,
      visible backend expr resources effects = deliver answer printed effects.sink := by
  -- Answer and output have to be there before any sink is, so every case begins with them.
  cases checked : expr.check with
  | error error =>
      refine ⟨.error (.compile error), "", fun effects => ?_⟩
      rw [deliver_empty, visible_of_check_error checked]
  | ok ty =>
      have typed := Expr.HasTy.of_check checked
      cases backend with
      | walker =>
          rcases exists_settle_eq_deliver expr.exists_prints_evaluate with
            ⟨answer, printed, same⟩
          refine ⟨answer, printed, fun effects => ?_⟩
          rw [visible_walker typed, same]
      | threaded =>
          by_cases allocatable : resources.stackSize ≤ resources.memory
          · rcases exists_settle_eq_deliver
              (expr.exists_prints_evaluateWithin resources.stackSize 0) with
              ⟨answer, printed, same⟩
            refine ⟨answer, printed, fun effects => ?_⟩
            rw [visible_threaded_of_allocatable typed allocatable, same]
          · have tooLarge := Nat.not_le.mp allocatable
            refine ⟨.error (.runtime (.stackAllocation resources.stackSize)), "",
              fun effects => ?_⟩
            rw [deliver_empty, visible_threaded_of_not_allocatable typed tooLarge]

end Backend

namespace Job

variable {jobs : List Job} {limit : Nat}

/-- How the job ends with an unlimited sink of its own, and what it prints there. -/
def alone (job : Job) : Except RunError Unit × String :=
  let (answer, after) := outcome (job.run {})
  (answer, after.sink.text)

def printedBy (jobs : List Job) : String :=
  String.join (jobs.map fun job => job.alone.2)

theorem printedBy_nil : printedBy [] = "" := rfl

theorem printedBy_cons (job : Job) (jobs : List Job) :
    printedBy (job :: jobs) = job.alone.2 ++ printedBy jobs := by
  rw [printedBy, List.map_cons, String.join_cons, printedBy]

theorem outcome_run_eq_deliver (job : Job) (effects : Effects) :
    ((outcome (job.run effects)).1, (outcome (job.run effects)).2.sink) =
      Backend.deliver job.alone.1 job.alone.2 effects.sink := by
  rcases Backend.exists_visible_eq_deliver job.backend job.expr job.resources with
    ⟨answer, printed, same⟩
  have fresh := same {}
  rw [Backend.deliver_unlimited, String.empty_append] at fresh
  have answers : job.alone.1 = answer := congrArg Prod.fst fresh
  have prints : job.alone.2 = printed := congrArg (·.2.text) fresh
  rw [answers, prints]
  exact same effects

theorem utf8ByteSize_alone (job : Job) :
    job.alone.2.utf8ByteSize = job.alone.2.length := by
  rcases Backend.visible_cases job.backend job.expr job.resources "" #[] with
    ⟨_, failed⟩ | ⟨outcomes, -, printed⟩
  · have nothing : job.alone.2 = "" := congrArg (·.2.text) failed
    rw [nothing]
    rfl
  · have lines : job.alone.2 = unlines (outcomes.map Expr.line) :=
      (congrArg (·.2.text) printed).trans String.empty_append
    rw [lines, Expr.utf8ByteSize_unlines]

theorem length_le_sub_iff (before printed : String) :
    printed.length ≤ limit - before.length ↔
      ¬(printed ≠ "" ∧ limit < (before ++ printed).length) := by
  rw [String.length_append]
  by_cases empty : printed = ""
  · simp [empty]
  · have positive : printed.length ≠ 0 := mt String.length_eq_zero_iff.mp empty
    simp only [ne_eq, empty, not_false_eq_true, true_and]
    omega

theorem session_run_limited (jobs : List Job) (limit : Nat) (before : String)
    {effects : Effects}
    (stored : effects.sink = Sink.limited limit before) :
    session Job.run (·.sink.text) jobs effects =
      jobs.mapIdx fun index job =>
        let total := before ++ printedBy (jobs.take (index + 1))
        (if job.alone.2 ≠ "" ∧ limit < total.length then .error (.runtime .output)
          else job.alone.1, Sink.cut limit total) := by
  induction jobs generalizing before effects with
  | nil => rfl
  | cons job jobs induction =>
      have delivered := outcome_run_eq_deliver job effects
      rw [stored, Backend.deliver_limited] at delivered
      simp only [length_le_sub_iff, ite_not] at delivered
      simp only [session, List.mapIdx_cons, List.take_succ_cons, List.take_zero,
        printedBy_cons, printedBy_nil, String.append_empty, ← String.append_assoc]
      generalize outcome (job.run effects) = reached at delivered ⊢
      rcases reached with ⟨answer, after⟩
      rcases Prod.mk.inj delivered with ⟨answers, sink⟩
      dsimp only at answers sink ⊢
      -- What this job prints now counts as printed before the others.
      rw [induction (before ++ job.alone.2) sink, sink, answers, Sink.text_limited]

/-- Each job leaves in the sink the beginning of what the jobs so far print, and it fails
where it would print beyond the limit. The limit counts bytes, since no character that is
printed takes more than one. -/
theorem runAll_limited :
    (∀ (jobs : List Job) (limit : Nat),
      runAll jobs { room := some limit } =
        jobs.mapIdx fun index job =>
          let total := printedBy (jobs.take (index + 1))
          (if job.alone.2 ≠ "" ∧ limit < total.length then .error (.runtime .output)
            else job.alone.1, Sink.cut limit total)) ∧
      ∀ job : Job, job.alone.2.utf8ByteSize = job.alone.2.length := by
  constructor
  · intro jobs limit
    have empty : ({ room := some limit } : Sink) =
        ⟨Sink.cut limit "", some (limit - "".length)⟩ := by
      rw [Sink.cut_of_le (Nat.zero_le limit)]
      rfl
    have run := @session_run_limited jobs limit "" { sink := { room := some limit } } empty
    simp only [String.empty_append] at run
    exact run
  · intro job
    exact utf8ByteSize_alone job

/-- The second job is cut off in the middle of its output. To the others, which print
nothing, it is no matter that the sink is full. -/
example :
    let jobs : List Job :=
      [⟨.threaded, .print (.value 42), { stackSize := 8 }⟩,
        ⟨.walker, .print (.print (.value 7)), {}⟩,
        ⟨.threaded, .value 1, { stackSize := 8 }⟩,
        ⟨.threaded, .print (.value 9), { stackSize := 7 }⟩]
    runAll jobs { room := some 4 } =
      [(.ok (), "42\n"), (.error (.runtime .output), "42\n7"), (.ok (), "42\n7"),
        (.error (.runtime (.stackOverflow 0 8 7)), "42\n7")] := by
  rfl

end Job

end ExprMachine

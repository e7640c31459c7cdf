import SecureKit.Proofs.Board.Run
import SecureKit.Proofs.Protocol.Engine
import SecureKit.Proofs.Timing.Scheduler

/-!
# The Bus between Kit and Tasks

The kit lock counts down from the latest line. While it counts, the kit has the bus to itself; when
it has run out, and before the first line, the tasks have it.

* `Session.LockFollows` — the lock is determined by the history.
* `lockFollows_act`, `lockFollows_run` — it stays so in every run.
* `bus_exclusive` — when the tasks run, and when they do not.
-/

namespace SecureKit.Board

open Program

/-- The ticks for which a line keeps the tasks off the bus, with a tick of `period` milliseconds; a
period of zero counts as one. -/
def holdTicks (period : Nat) : Nat := max 1 (kitHoldoff / max period 1)

/-- The kit lock is taken for as many ticks as a line keeps the bus. -/
theorem ticksFor_kitHoldoff (period : Nat) :
    Holdoff.ticksFor (max period 1) kitHoldoff = holdTicks period := by
  rw [Holdoff.ticksFor, if_neg (by decide), holdTicks, Nat.max_comm]

example : [0, 10, 7000].map holdTicks = [5000, 500, 1] := by decide

/-- The ticks for which the latest line of a history still keeps the tasks off the bus. -/
def ticksLeft (period : Nat) (history : List Occurrence) : Nat :=
  if .line ∈ history then holdTicks period - ticksSinceLine history else 0

@[simp]
theorem ticksLeft_line (period : Nat) (history : List Occurrence) :
    ticksLeft period (.line :: history) = holdTicks period := by
  simp [ticksLeft]

/-- A tick is one less for the latest line. -/
@[simp]
theorem ticksLeft_tick (period : Nat) (history : List Occurrence) :
    ticksLeft period (.tick :: history) = ticksLeft period history - 1 := by
  by_cases h : .line ∈ history
  · simp [ticksLeft, h, Nat.sub_add_eq]
  · -- before the first line a tick counts nothing down
    simp [ticksLeft, h]

@[simp]
theorem ticksLeft_other (period : Nat) (history : List Occurrence) :
    ticksLeft period (.other :: history) = ticksLeft period history := by
  simp [ticksLeft]

/-- The tasks are kept off the bus exactly if there was a line and its ticks are not over. -/
theorem ticksLeft_pos_iff (period : Nat) (history : List Occurrence) :
    0 < ticksLeft period history ↔
      .line ∈ history ∧ ticksSinceLine history < holdTicks period := by
  rw [ticksLeft]
  by_cases h : .line ∈ history
  · rw [if_pos h, Nat.sub_pos_iff_lt, and_iff_right h]
  · simp [h]

theorem keeps_fanTask : scheduler.Keeps fanTask := by
  intro board
  rw [fanTask, ensures_bind]
  exact ensures_of_forall fun _ _ => rfl

theorem keeps_clientTask : scheduler.Keeps clientTask := by
  intro board
  rw [clientTask, ensures_bind]
  exact ensures_of_forall fun _ _ => rfl

theorem keeps_tasks : ∀ task ∈ [fanTask, clientTask], scheduler.Keeps task :=
  List.forall_mem_cons.2 ⟨keeps_fanTask, List.forall_mem_singleton.2 keeps_clientTask⟩

/-- With a free bus both tasks run, one after the other. -/
theorem runTasks_of_free {board : Board} (hfree : scheduler.busLocked board = false) :
    board.runTasks =
      (do
        let board ← board.fanTask
        let board ← board.clientTask
        return (2, board)) := by
  rw [runTasks, Scheduler.runTasks_of_keeps keeps_tasks hfree]
  simp only [List.foldlM_cons, List.foldlM_nil, bind_assoc, pure_bind]
  rfl

/-- A poll takes the kit lock for the line it answers, and leaves it alone without a line. -/
theorem lock_poll (board : Board) :
    board.poll.Ensures fun _ result =>
      result.2.engine.lock =
        if result.1 then board.engine.lock.arm kitHoldoff else board.engine.lock := by
  rw [poll, ensures_bind]
  exact (board.engine.lock_poll board.queue).mono fun _ _ hlock => hlock

/-- A poll takes the first line that waits, and says so. -/
theorem poll_of_lines (board : Board) {line : ReceivedLine} {waiting : List ReceivedLine}
    (h : board.queue.lines = line :: waiting) :
    board.poll.Ensures fun _ result => result.1 = true ∧ result.2.queue.lines = waiting := by
  rw [poll, ensures_bind]
  refine (board.engine.queue_poll h).mono fun _ result hpoll => ?_
  exact ⟨hpoll.1, congrArg LineQueue.lines hpoll.2⟩

/-- The kit lock is the one the history calls for. -/
structure Session.LockFollows {σ : Type} (period : Nat) (session : Session σ) : Prop where
  /-- The lock counts in the tick period. -/
  period_eq : session.board.engine.lock.period = max period 1
  /-- The lock is taken for the ticks left to the latest line. -/
  remaining_eq : session.board.engine.lock.remaining = ticksLeft period session.history

namespace Session

variable {σ : Type} {period : Nat}

/-- The bus is taken as long as there are ticks left to the latest line. -/
theorem LockFollows.busLocked_iff {session : Session σ} (h : session.LockFollows period) :
    scheduler.busLocked session.board = true ↔ 0 < ticksLeft period session.history := by
  rw [← h.remaining_eq]
  exact Holdoff.held_eq_true_iff _

/-- At the start nothing has happened, and the lock is released. -/
theorem lockFollows_start (identity : Identity) (period : Nat) (peripherals : σ) :
    (start identity period peripherals).LockFollows period where
  period_eq := rfl
  remaining_eq := rfl

/-- The lock follows the history over every action. -/
theorem lockFollows_act (environment : Environment σ) {session : Session σ}
    (h : session.LockFollows period) (action : Action σ) :
    (session.act environment action).LockFollows period := by
  obtain ⟨hperiod, hremaining⟩ := h
  -- what leaves the lock as it is and is neither a line nor a tick
  have hother {board : Board} (peripherals : σ)
      (hlock : board.engine.lock = session.board.engine.lock) :
      LockFollows period ⟨board, peripherals, .other :: session.history⟩ :=
    ⟨by rw [hlock, hperiod], by rw [hlock, hremaining, ticksLeft_other]⟩
  cases action with
  | report data => exact hother _ rfl
  | poll =>
    have hpoll := session.board.lock_poll.run environment session.peripherals
    rw [act]
    generalize session.board.poll.run environment session.peripherals = result at hpoll ⊢
    obtain ⟨⟨_ | _, board⟩, peripherals⟩ := result
    · exact hother peripherals hpoll
    · -- a line starts the count anew, whatever was left of it
      have harmed : board.engine.lock = session.board.engine.lock.arm kitHoldoff := hpoll
      constructor
      · rw [harmed, Holdoff.period_arm, hperiod]
      · simp [harmed, hperiod, ticksFor_kitHoldoff]
  | runTasks =>
    -- a free bus may be used, but only a line takes the lock
    exact hother _ ((Scheduler.ensures_runTasks keeps_tasks session.board).run environment
      session.peripherals)
  | tick =>
    constructor
    · rw [act, lock_tick, Holdoff.period_tick, hperiod]
    · rw [act, lock_tick, Holdoff.remaining_tick, hremaining, ticksLeft_tick]
  | change change => exact hother _ rfl

/-- The lock follows the history over every run. -/
theorem lockFollows_run (environment : Environment σ) (identity : Identity) (period : Nat)
    (peripherals : σ) (actions : List (Action σ)) :
    ((start identity period peripherals).run environment actions).LockFollows period :=
  run_induction (motive := LockFollows period)
    (fun _ action h => lockFollows_act environment h action)
    (lockFollows_start identity period peripherals) actions

/-- A look into a queue in which lines wait answers the first of them. -/
theorem act_poll_of_lines (session : Session σ) (environment : Environment σ) {line : ReceivedLine}
    {waiting : List ReceivedLine} (h : session.board.queue.lines = line :: waiting) :
    (session.act environment .poll).history = .line :: session.history ∧
      (session.act environment .poll).board.queue.lines = waiting := by
  have hpoll := (session.board.poll_of_lines h).run environment session.peripherals
  rw [act]
  generalize session.board.poll.run environment session.peripherals = result at hpoll ⊢
  obtain ⟨⟨answered, board⟩, peripherals⟩ := result
  obtain ⟨rfl, hwaiting⟩ := hpoll
  exact ⟨rfl, hwaiting⟩

end Session

/-- The kit and the tasks never have the bus at the same time: in every run, with fewer ticks since
the latest line than a line keeps the bus no task makes a call or changes anything, and otherwise
both run, the fan control first. Looking for a line in vain changes nothing, and of lines that wait
the first is answered. -/
theorem bus_exclusive {σ : Type} (environment : Environment σ) (identity : Identity)
    (period : Nat) (peripherals : σ) (actions : List (Action σ)) :
    let session := (Session.start identity period peripherals).run environment actions
    (.line ∈ session.history ∧ ticksSinceLine session.history < holdTicks period →
      session.board.runTasks = return (0, session.board)) ∧
    (.line ∉ session.history ∨ holdTicks period ≤ ticksSinceLine session.history →
      session.board.runTasks =
        (do
          let board ← session.board.fanTask
          let board ← board.clientTask
          return (2, board))) ∧
    (session.board.queue.lines = [] → session.board.poll = return (false, session.board)) ∧
    ∀ line waiting, session.board.queue.lines = line :: waiting →
      (session.act environment .poll).history = .line :: session.history ∧
        (session.act environment .poll).board.queue.lines = waiting := by
  intro session
  have hfollows : session.LockFollows period :=
    Session.lockFollows_run environment identity period peripherals actions
  refine ⟨?_, ?_, ?_, fun line waiting hlines => session.act_poll_of_lines environment hlines⟩
  -- the lock is never looked at alone: it holds exactly for the ticks that the history leaves it
  · intro htaken
    rw [← ticksLeft_pos_iff, ← hfollows.busLocked_iff] at htaken
    exact scheduler.runTasks_of_busLocked _ htaken
  · intro hfree
    refine runTasks_of_free (Bool.eq_false_iff.2 fun hlocked => ?_)
    rw [hfollows.busLocked_iff, ticksLeft_pos_iff] at hlocked
    obtain ⟨hline, hticks⟩ := hlocked
    rcases hfree with hnone | hover
    · exact hnone hline
    · exact Nat.not_lt_of_le hover hticks
  · intro hempty
    rw [poll, Engine.poll, LineQueue.dequeue?, hempty]
    rfl

end SecureKit.Board

import SecureKit.Proofs.Peripheral.Program
import SecureKit.Timing.Scheduler

/-!
# Rounds of Tasks

In a round each task is run if the bus is free when its turn comes, and the round is over if it is
not. Since a task may take the bus, how many are run depends on what the tasks do.

* `runFirst` — some of the tasks, from the first one on, whatever becomes of the bus.
* `runTasks_isPrefix` — a round runs the first tasks, up to the first one that finds the bus taken.
-/

namespace SecureKit.Scheduler

open Program

variable {σ ρ : Type}

/-- Run the first `count` of the tasks, each once and in order. -/
def runFirst (tasks : List (σ → Program σ)) (count : Nat) (state : σ) : Program σ :=
  (tasks.take count).foldlM (fun state task => task state) state

@[simp]
theorem runFirst_cons_succ (task : σ → Program σ) (rest : List (σ → Program σ)) (count : Nat)
    (state : σ) :
    runFirst (task :: rest) (count + 1) state = (do runFirst rest count (← task state)) := by
  rw [runFirst, List.take_succ_cons, List.foldlM_cons]
  rfl

variable (scheduler : Scheduler σ) (environment : Environment ρ)

/-- Whether the kit lock is held after the first `count` of the tasks. -/
def lockedAfter (tasks : List (σ → Program σ)) (state : σ) (peripherals : ρ) (count : Nat) : Bool :=
  (scheduler.kitLock.read ((runFirst tasks count state).run environment peripherals).1).held

/-- Behind the first task it is as if the round began there. -/
theorem lockedAfter_cons_succ (task : σ → Program σ) (rest : List (σ → Program σ)) (state : σ)
    (peripherals : ρ) (count : Nat) :
    scheduler.lockedAfter environment (task :: rest) state peripherals (count + 1) =
      scheduler.lockedAfter environment rest ((task state).run environment peripherals).1
        ((task state).run environment peripherals).2 count := by
  rw [lockedAfter, runFirst_cons_succ, run_bind]
  rfl

/-- A round comes to running the first `ran` of the tasks. The kit lock is released before each of
them, and is held behind them if there are more. -/
structure Round (tasks : List (σ → Program σ)) (state : σ) (peripherals : ρ) (ran : Nat) :
    Prop where
  /-- There are that many tasks. -/
  le_length : ran ≤ tasks.length
  /-- Each of them is run once and in order, nothing else is done, and their number is returned. -/
  runs : (scheduler.runTasks tasks state).Runs environment peripherals
    ((runFirst tasks ran state).trace environment peripherals)
    (ran, ((runFirst tasks ran state).run environment peripherals).1)
    ((runFirst tasks ran state).run environment peripherals).2
  /-- Every task that is run finds the lock released. -/
  free : ∀ count < ran, scheduler.lockedAfter environment tasks state peripherals count = false
  /-- The first task that is not run finds the lock held. -/
  locked : ran < tasks.length →
    scheduler.lockedAfter environment tasks state peripherals ran = true

variable {scheduler environment}

/-- With the lock held at the start the round is over at once. -/
theorem Round.of_busLocked {state : σ} (h : scheduler.busLocked state = true)
    (tasks : List (σ → Program σ)) (peripherals : ρ) :
    Round scheduler environment tasks state peripherals 0 where
  le_length := Nat.zero_le _
  runs := by
    rw [scheduler.runTasks_of_busLocked _ h]
    exact .done (0, state)
  free count hcount := absurd hcount (Nat.not_lt_zero count)
  locked _ := h

/-- With a free bus the first task runs, and the round goes on with what it has left. -/
theorem Round.cons {task : σ → Program σ} {rest : List (σ → Program σ)} {state : σ}
    {peripherals : ρ} {ran : Nat} (hfree : scheduler.busLocked state = false)
    (h : Round scheduler environment rest ((task state).run environment peripherals).1
      ((task state).run environment peripherals).2 ran) :
    Round scheduler environment (task :: rest) state peripherals (ran + 1) where
  le_length := Nat.succ_le_succ h.le_length
  runs := by
    have htask : (task state).Runs environment peripherals
        ((task state).trace environment peripherals)
        ((task state).run environment peripherals).1
        ((task state).run environment peripherals).2 := ⟨rfl, rfl⟩
    -- the events of the first task, then those of the round after it; only the count is off by one
    rw [runTasks, hfree, runFirst_cons_succ, trace_bind, run_bind]
    exact htask.bind (h.runs.bind_return fun result => (result.1 + 1, result.2))
  free count hcount := by
    cases count with
    | zero => exact hfree
    | succ count =>
      rw [lockedAfter_cons_succ]
      exact h.free count (Nat.lt_of_succ_lt_succ hcount)
  locked hmore := by
    rw [lockedAfter_cons_succ]
    exact h.locked (Nat.lt_of_succ_lt_succ hmore)

variable (scheduler environment)

/-- Whatever the tasks do, there is a round. -/
theorem exists_round (tasks : List (σ → Program σ)) (state : σ) (peripherals : ρ) :
    ∃ ran, Round scheduler environment tasks state peripherals ran := by
  induction tasks generalizing state peripherals with
  | nil =>
    exact ⟨0, Nat.le_refl 0, .done (0, state), fun count hcount => absurd hcount
      (Nat.not_lt_zero count), fun hmore => absurd hmore (Nat.lt_irrefl 0)⟩
  | cons task rest ih =>
    cases hbus : scheduler.busLocked state with
    | true => exact ⟨0, .of_busLocked hbus _ peripherals⟩
    | false =>
      obtain ⟨ran, hround⟩ := ih ((task state).run environment peripherals).1
        ((task state).run environment peripherals).2
      exact ⟨ran + 1, hround.cons hbus⟩

/-- The number that a round returns is that of the tasks it has run: the first ones, each once and
in order, with the kit lock released before each, and all of them unless the next one finds the lock
held. So a task that takes the lock keeps those behind it from running, and with the lock held at
the start nothing is done. -/
theorem runTasks_isPrefix (tasks : List (σ → Program σ)) (state : σ) (peripherals : ρ) :
    let ran := ((scheduler.runTasks tasks state).run environment peripherals).1.1
    Round scheduler environment tasks state peripherals ran ∧
      (∀ count, scheduler.lockedAfter environment tasks state peripherals count = true →
        ran ≤ count) ∧
      ((scheduler.kitLock.read state).held = true →
        scheduler.runTasks tasks state = return (0, state)) := by
  intro ran
  obtain ⟨ran', hround⟩ := exists_round scheduler environment tasks state peripherals
  -- a round returns its number, so there is only this one
  obtain rfl : ran = ran' := congrArg (·.1.1) hround.runs.run_eq
  refine ⟨hround, fun count hlocked => Nat.le_of_not_lt fun hlt => ?_,
    scheduler.runTasks_of_busLocked tasks⟩
  rw [hround.free count hlt] at hlocked
  exact Bool.false_ne_true hlocked

end SecureKit.Scheduler

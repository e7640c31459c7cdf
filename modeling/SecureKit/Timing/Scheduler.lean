import SecureKit.Timing.Holdoff

/-!
# Scheduler

The scheduler counts a tick on every holdoff it knows and keeps tasks off the shared bus while the
kit lock is held. The holdoffs live where they are used, somewhere in a system state; the scheduler
reaches them through a `Timer`.

Tasks run to completion one after the other (`runTasks`); the lock is looked at before each of them,
so a task that takes the bus keeps the later ones from running.
-/

namespace SecureKit

/-- A way to reach one holdoff in a system state. -/
structure Timer (σ : Type) where
  /-- The holdoff in a state. -/
  read : σ → Holdoff
  /-- The state with another holdoff in its place. -/
  write : σ → Holdoff → σ

namespace Timer

/-- Change the holdoff by `f`. -/
def modify {σ : Type} (timer : Timer σ) (f : Holdoff → Holdoff) (state : σ) : σ :=
  timer.write state (f (timer.read state))

/-- The holdoff at place `i` of a row of holdoffs. -/
def atPlace {n : Nat} (i : Fin n) : Timer (Vector Holdoff n) where
  read holdoffs := holdoffs[i]
  write holdoffs holdoff := holdoffs.set i holdoff

end Timer

/-- The holdoffs that a system tick counts down. -/
structure Scheduler (σ : Type) where
  /-- The lock of the shared bus. -/
  kitLock : Timer σ
  /-- The holdoffs registered besides, in order. -/
  timers : List (Timer σ)

namespace Scheduler

variable {σ : Type}

/-- The number of holdoffs that can be registered. -/
def timersMax : Nat := 8

/-- A scheduler that counts down the kit lock only. -/
def new (kitLock : Timer σ) : Scheduler σ where
  kitLock := kitLock
  timers := []

/-- Count down `timer` as well from now on, unless the table is full. -/
def register? (scheduler : Scheduler σ) (timer : Timer σ) : Option (Scheduler σ) :=
  if scheduler.timers.length < timersMax then
    some { scheduler with timers := scheduler.timers ++ [timer] }
  else none

/-- Count one system tick. -/
def tick (scheduler : Scheduler σ) (state : σ) : σ :=
  (scheduler.kitLock :: scheduler.timers).foldl (fun state timer => timer.modify .tick state) state

/-- Whether the kit owns the bus. -/
def busLocked (scheduler : Scheduler σ) (state : σ) : Bool :=
  (scheduler.kitLock.read state).held

/-- Run tasks in order while the kit does not own the bus. Returns how many were run. -/
def runTasks {m : Type → Type} [Monad m] (scheduler : Scheduler σ) :
    List (σ → m σ) → σ → m (Nat × σ)
  | [], state => pure (0, state)
  | task :: rest, state =>
    if scheduler.busLocked state then pure (0, state)
    else do
      let (ran, state) ← scheduler.runTasks rest (← task state)
      return (ran + 1, state)

/-- With the bus taken no task runs. -/
theorem runTasks_of_busLocked {m : Type → Type} [Monad m] (scheduler : Scheduler σ)
    (tasks : List (σ → m σ)) {state : σ} (h : scheduler.busLocked state = true) :
    scheduler.runTasks tasks state = pure (0, state) := by
  cases tasks <;> simp [runTasks, h]

end Scheduler

end SecureKit

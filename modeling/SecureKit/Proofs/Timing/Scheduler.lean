import SecureKit.Proofs.Peripheral.Program
import SecureKit.Timing.Scheduler

/-!
# Tasks that Leave the Bus Alone

The kit lock is looked at before each task. Tasks that do not change it can therefore be kept off
the bus only all together: with a free bus every one of them runs, once and in order.

* `runTasks_of_keeps` — the tasks run one after the other.
* `ensures_runTasks` — the kit lock stays as it was.
-/

namespace SecureKit.Scheduler

open Program

variable {σ : Type} (scheduler : Scheduler σ)

/-- A task that leaves the kit lock as it was. -/
def Keeps (task : σ → Program σ) : Prop :=
  ∀ state, (task state).Ensures fun _ state' =>
    scheduler.kitLock.read state' = scheduler.kitLock.read state

variable {scheduler} {tasks : List (σ → Program σ)}

/-- With a free bus, tasks that leave the kit lock alone run one after the other. -/
theorem runTasks_of_keeps (hkeeps : ∀ task ∈ tasks, scheduler.Keeps task) {state : σ}
    (hfree : scheduler.busLocked state = false) :
    scheduler.runTasks tasks state =
      (do
        let state ← tasks.foldlM (fun state task => task state) state
        return (tasks.length, state)) := by
  induction tasks generalizing state with
  | nil => rfl
  | cons task rest ih =>
    obtain ⟨htask, hrest⟩ := List.forall_mem_cons.1 hkeeps
    rw [runTasks, hfree, List.foldlM_cons, bind_assoc]
    -- the bus is still free when the task has run
    refine (htask state).bind_congr fun state' hsame => ?_
    have hfree' : scheduler.busLocked state' = false := by
      rw [busLocked, hsame]
      exact hfree
    rw [ih hrest hfree', bind_assoc]
    rfl

/-- Tasks that leave the kit lock alone leave it alone together. -/
theorem ensures_runTasks (hkeeps : ∀ task ∈ tasks, scheduler.Keeps task) (state : σ) :
    (scheduler.runTasks tasks state).Ensures fun _ result =>
      scheduler.kitLock.read result.2 = scheduler.kitLock.read state := by
  induction tasks generalizing state with
  | nil => rfl
  | cons task rest ih =>
    obtain ⟨htask, hrest⟩ := List.forall_mem_cons.1 hkeeps
    rw [runTasks]
    by_cases hlocked : scheduler.busLocked state = true
    · rw [if_pos hlocked]
      rfl
    · -- the task keeps the lock, and so do the ones after it
      rw [if_neg hlocked, ensures_bind]
      refine (htask state).mono fun _ state' hsame => ?_
      rw [ensures_bind]
      refine (ih hrest state').mono fun _ result hresult => ?_
      exact hresult.trans hsame

end SecureKit.Scheduler

import Mathlib.Data.List.Induction
import Mathlib.Data.List.Infix
import SecureKit.Timing.Scheduler

/-!
# Counting Down

A tick goes over the kit lock and the registered holdoffs, and lowers each of them where it stands.
Nothing keeps a holdoff from being registered again, or the kit lock from being registered as well,
so that a holdoff may stand there more than once, and then one tick lowers it as often.

* `Countdown` — a scheduler with its holdoffs, which are registered, armed and counted down in any
  order.
* `counted` — the places that a tick goes over.
* `ticks_counted` — what a tick does, and how long an armed holdoff is held.
* `counted_twice` — a holdoff that goes down by two in one tick.
-/

namespace SecureKit

/-- The holdoff after a number of ticks. -/
def Holdoff.ticked (holdoff : Holdoff) (ticks : Nat) : Holdoff :=
  { holdoff with remaining := holdoff.remaining - ticks }

@[simp]
theorem Holdoff.ticked_zero (holdoff : Holdoff) : holdoff.ticked 0 = holdoff := rfl

/-- One tick and then others are one more in all. -/
theorem Holdoff.ticked_tick (holdoff : Holdoff) (ticks : Nat) :
    holdoff.tick.ticked ticks = holdoff.ticked (ticks + 1) := by
  simp [ticked, Nat.sub_sub, Nat.add_comm]

/-- Ticks after ticks are as many as both together. -/
theorem Holdoff.ticked_ticked (holdoff : Holdoff) (ticks ticks' : Nat) :
    (holdoff.ticked ticks).ticked ticks' = holdoff.ticked (ticks + ticks') := by
  simp [ticked, Nat.sub_sub]

/-- What is done to the holdoff at a place can be read there. -/
@[simp]
theorem Timer.read_modify_atPlace {n : Nat} (place : Fin n) (f : Holdoff → Holdoff)
    (holdoffs : Vector Holdoff n) :
    (atPlace place).read ((atPlace place).modify f holdoffs) =
      f ((atPlace place).read holdoffs) := by
  simp [modify, atPlace]

/-- What is done to the holdoff at a place leaves those at other places alone. -/
theorem Timer.read_modify_atPlace_of_ne {n : Nat} {other place : Fin n} (h : other ≠ place)
    (f : Holdoff → Holdoff) (holdoffs : Vector Holdoff n) :
    (atPlace place).read ((atPlace other).modify f holdoffs) = (atPlace place).read holdoffs := by
  simp [modify, atPlace, Fin.val_inj, h]

/-- What may happen to a scheduler and `n` holdoffs. -/
inductive Countdown.Action (n : Nat) where
  /-- A holdoff is registered. -/
  | register (place : Fin n)
  /-- A holdoff is armed. -/
  | arm (place : Fin n) (duration : Nat)
  /-- The system tick is counted. -/
  | tick
  deriving DecidableEq

/-- The place that an action registers. -/
def Countdown.Action.registration? {n : Nat} : Action n → Option (Fin n)
  | register place => some place
  | _ => none

/-- A scheduler with the holdoffs that may be registered at it. -/
structure Countdown (n : Nat) where
  /-- The scheduler. -/
  scheduler : Scheduler (Vector Holdoff n)
  /-- The holdoffs. -/
  holdoffs : Vector Holdoff n

namespace Countdown

variable {n : Nat}

/-- The holdoff at a place. -/
def holdoff (countdown : Countdown n) (place : Fin n) : Holdoff :=
  (Timer.atPlace place).read countdown.holdoffs

/-- A new scheduler around the holdoff at place `kitLock`. -/
def start (kitLock : Fin n) (holdoffs : Vector Holdoff n) : Countdown n where
  scheduler := .new (.atPlace kitLock)
  holdoffs := holdoffs

/-- The countdown after an action. -/
def act (countdown : Countdown n) : Action n → Countdown n
  | .register place =>
    match countdown.scheduler.register? (.atPlace place) with
    | some scheduler => { countdown with scheduler }
    | none => countdown
  | .arm place duration =>
    { countdown with
      holdoffs := (Timer.atPlace place).modify (·.arm duration) countdown.holdoffs }
  | .tick => { countdown with holdoffs := countdown.scheduler.tick countdown.holdoffs }

/-- The countdown after a sequence of actions. -/
def run (countdown : Countdown n) (actions : List (Action n)) : Countdown n :=
  actions.foldl act countdown

/-- The registrations among actions for which there is room in the table, in order. -/
def registered (actions : List (Action n)) : List (Fin n) :=
  (actions.filterMap Action.registration?).take Scheduler.timersMax

/-- The places that a tick counts down after a sequence of actions: that of the kit lock, and those
that were registered, each as often as it was. -/
def counted (kitLock : Fin n) (actions : List (Action n)) : List (Fin n) :=
  kitLock :: registered actions

/-- A registration is added to the others as long as there is room. -/
theorem registered_concat_register (actions : List (Action n)) (place : Fin n) :
    registered (actions ++ [.register place]) =
      if (registered actions).length < Scheduler.timersMax then registered actions ++ [place]
      else registered actions := by
  rw [registered, registered, List.filterMap_append, List.take_append, List.length_take]
  generalize actions.filterMap Action.registration? = places
  split_ifs with hroom
  · -- nothing was refused so far, so the place comes right behind the others
    have hone : 1 ≤ Scheduler.timersMax - places.length := by omega
    exact congrArg (places.take Scheduler.timersMax ++ ·) (List.take_of_length_le hone)
  · have hnone : Scheduler.timersMax - places.length = 0 := by omega
    rw [hnone, List.take_zero, List.append_nil]

/-- Only registrations are added. -/
theorem registered_concat_of_none (actions : List (Action n)) {action : Action n}
    (h : action.registration? = none) : registered (actions ++ [action]) = registered actions := by
  rw [registered, List.filterMap_append, List.filterMap_cons_none h, List.filterMap_nil,
    List.append_nil, registered]

/-- What was counted stays counted. -/
theorem counted_isPrefix (kitLock : Fin n) (actions later : List (Action n)) :
    counted kitLock actions <+: counted kitLock (actions ++ later) := by
  rw [counted, counted, List.prefix_cons_inj, registered, registered, List.filterMap_append]
  exact List.IsPrefix.take (List.prefix_append _ _) _

@[simp]
theorem run_cons (countdown : Countdown n) (action : Action n) (later : List (Action n)) :
    countdown.run (action :: later) = (countdown.act action).run later := rfl

theorem run_concat (countdown : Countdown n) (actions : List (Action n)) (action : Action n) :
    countdown.run (actions ++ [action]) = (countdown.run actions).act action := by
  simp [run]

/-- Counting down a row of places lowers a holdoff as often as its place stands there. -/
theorem read_foldl_tick (places : List (Fin n)) (holdoffs : Vector Holdoff n) (place : Fin n) :
    (Timer.atPlace place).read ((places.map Timer.atPlace).foldl
      (fun state timer => timer.modify .tick state) holdoffs) =
      ((Timer.atPlace place).read holdoffs).ticked (places.count place) := by
  induction places generalizing holdoffs with
  | nil => rfl
  | cons first rest ih =>
    rw [List.map_cons, List.foldl_cons, ih]
    by_cases hsame : first = place
    · subst hsame
      rw [Timer.read_modify_atPlace, Holdoff.ticked_tick, List.count_cons_self]
    · rw [Timer.read_modify_atPlace_of_ne hsame, List.count_cons_of_ne hsame]

section Run

variable (kitLock : Fin n) (holdoffs : Vector Holdoff n) (actions : List (Action n))

/-- The scheduler of a run is determined by the registrations for which there was room. -/
theorem scheduler_run :
    ((start kitLock holdoffs).run actions).scheduler =
      { kitLock := .atPlace kitLock
        timers := (registered actions).map .atPlace } := by
  induction actions using List.reverseRecOn with
  | nil => rfl
  | append_singleton actions action ih =>
    rw [run_concat]
    cases action with
    | register place =>
      rw [act, registered_concat_register]
      simp only [ih, Scheduler.register?, List.length_map]
      split_ifs
      · simp
      · exact ih
    | arm place duration => rw [registered_concat_of_none actions rfl]; exact ih
    | tick => rw [registered_concat_of_none actions rfl]; exact ih

/-- Without room in the table, a registration changes nothing. -/
theorem act_register_of_full (h : (registered actions).length = Scheduler.timersMax)
    (place : Fin n) :
    ((start kitLock holdoffs).run actions).act (.register place) =
      (start kitLock holdoffs).run actions := by
  have hfull : ((start kitLock holdoffs).run actions).scheduler.register? (.atPlace place) =
      none := by
    rw [scheduler_run, Scheduler.register?, List.length_map, h, if_neg (Nat.lt_irrefl _)]
  rw [act, hfull]

/-- A tick lowers a holdoff as often as it is counted. -/
theorem holdoff_act_tick (place : Fin n) :
    (((start kitLock holdoffs).run actions).act .tick).holdoff place =
      (((start kitLock holdoffs).run actions).holdoff place).ticked
        ((counted kitLock actions).count place) := by
  rw [act, Scheduler.tick, scheduler_run]
  exact read_foldl_tick (counted kitLock actions) _ place

/-- A holdoff that is not armed is changed by ticks only. -/
theorem holdoff_act (place : Fin n) {action : Action n}
    (h : ∀ duration, action ≠ .arm place duration) :
    (((start kitLock holdoffs).run actions).act action).holdoff place =
      (((start kitLock holdoffs).run actions).holdoff place).ticked
        ((counted kitLock actions).count place * [action].count .tick) := by
  cases action with
  | register other =>
    rw [act]
    split <;> simp [holdoff]
  | arm other duration =>
    have hother : other ≠ place := fun hsame => h duration (hsame ▸ rfl)
    exact Timer.read_modify_atPlace_of_ne hother _ _
  | tick =>
    rw [List.count_singleton_self, Nat.mul_one]
    exact holdoff_act_tick kitLock holdoffs actions place

/-- A holdoff that is neither armed nor registered in the meantime is lowered by every tick
alike. -/
theorem holdoff_run {place : Fin n} {later : List (Action n)}
    (harm : ∀ duration, .arm place duration ∉ later)
    (hcount : (counted kitLock (actions ++ later)).count place =
      (counted kitLock actions).count place) :
    (((start kitLock holdoffs).run actions).run later).holdoff place =
      (((start kitLock holdoffs).run actions).holdoff place).ticked
        ((counted kitLock actions).count place * later.count .tick) := by
  -- forwards, so that the first action moves from `later` to `actions`
  induction later generalizing actions with
  | nil => rfl
  | cons action rest ih =>
    have hcons : actions ++ action :: rest = actions ++ [action] ++ rest := by simp
    -- the number of times it is counted cannot change on the way
    have hfirst : (counted kitLock (actions ++ [action])).count place =
        (counted kitLock actions).count place := by
      have hle := (counted_isPrefix kitLock actions [action]).sublist.count_le place
      have hle' := (counted_isPrefix kitLock (actions ++ [action]) rest).sublist.count_le place
      rw [← hcons, hcount] at hle'
      exact Nat.le_antisymm hle' hle
    have hother : ∀ duration, action ≠ .arm place duration :=
      fun duration hsame => harm duration (hsame ▸ List.mem_cons_self)
    have hrest := ih (actions ++ [action])
      (fun duration hmem => harm duration (List.mem_cons_of_mem _ hmem))
      (by rw [← hcons, hcount, hfirst])
    rw [run_concat] at hrest
    rw [run_cons, hrest, holdoff_act kitLock holdoffs actions place hother, hfirst,
      Holdoff.ticked_ticked, ← Nat.mul_add, ← List.count_append]
    rfl

end Run

/-- A tick lowers each holdoff as often as it is counted, which is once for the kit lock and once
more for each of its registrations, and once for each registration of another holdoff. So long as
there is room in the table every registration is accepted; after that it changes nothing. A holdoff
that is armed is held until the ticks have used it up. -/
theorem ticks_counted (kitLock : Fin n) (holdoffs : Vector Holdoff n) (actions : List (Action n))
    (place : Fin n) :
    let countdown := (start kitLock holdoffs).run actions
    let times := (counted kitLock actions).count place
    (countdown.act .tick).holdoff place = (countdown.holdoff place).ticked times ∧
      ((registered actions).length = Scheduler.timersMax →
        countdown.act (.register place) = countdown) ∧
      ∀ duration later, (∀ duration', .arm place duration' ∉ later) →
        (counted kitLock (actions ++ .arm place duration :: later)).count place = times →
        ((((countdown.act (.arm place duration)).run later).holdoff place).held = true ↔
          times * later.count .tick <
            Holdoff.ticksFor (countdown.holdoff place).period duration) := by
  intro countdown times
  refine ⟨holdoff_act_tick kitLock holdoffs actions place,
    fun hfull => act_register_of_full kitLock holdoffs actions hfull place, ?_⟩
  intro duration later harm hcount
  have harmed : registered (actions ++ [.arm place duration]) = registered actions :=
    registered_concat_of_none actions rfl
  -- arming registers nothing, so that the place is counted as often after it as before
  have hsame : (counted kitLock (actions ++ [.arm place duration] ++ later)).count place =
      (counted kitLock (actions ++ [.arm place duration])).count place := by
    rw [List.append_assoc, List.singleton_append, hcount, counted, harmed]
    rfl
  have hrun := holdoff_run kitLock holdoffs (actions ++ [.arm place duration]) harm hsame
  rw [run_concat, counted, harmed] at hrun
  have hholdoff : (countdown.act (.arm place duration)).holdoff place =
      (countdown.holdoff place).arm duration := Timer.read_modify_atPlace _ _ _
  rw [hrun, Holdoff.held_eq_true_iff]
  show 0 < ((countdown.act (.arm place duration)).holdoff place).remaining - _ ↔ _
  rw [hholdoff, Holdoff.remaining_arm, Nat.sub_pos_iff_lt]
  rfl

/-- A holdoff that is counted does not always count down by one: the kit lock may be registered as
well, and is then counted twice. -/
theorem counted_twice :
    ¬∀ (n : Nat) (kitLock : Fin n) (holdoffs : Vector Holdoff n) (actions : List (Action n))
      (place : Fin n), place ∈ counted kitLock actions →
        let countdown := (start kitLock holdoffs).run actions
        ((countdown.act .tick).holdoff place).remaining =
          (countdown.holdoff place).remaining - 1 := by
  intro h
  have honce := h 1 0 #v[.new 10] [.register 0, .arm 0 100] 0 List.mem_cons_self
  exact absurd honce (by decide)

end Countdown

end SecureKit

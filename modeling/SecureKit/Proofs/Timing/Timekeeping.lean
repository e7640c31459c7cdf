import SecureKit.Timing.Clock

/-!
# Keeping the Time

A system clock counts whole seconds, and what a tick leaves over of a second is carried to the next
tick. So its time does not drift: after any number of ticks it is the time that was set and the
whole seconds in all of these ticks together, for periods that do not divide a second as well.

* `SystemClock.Reading.after` — what a number of ticks makes of a reading.
* `SystemClock.run_of_unset` — between two settings a clock does nothing but count its ticks.
* `SystemClock.time_kept` — what a clock shows in every run.
-/

namespace SecureKit.SystemClock

/-- A reading a number of ticks later, by exact arithmetic. -/
def Reading.after (reading : Reading) (period ticks : Nat) : Reading where
  seconds := reading.seconds + UInt32.ofNat ((reading.millis.toNat + ticks * period) / 1000)
  millis := UInt32.ofNat ((reading.millis.toNat + ticks * period) % 1000)

/-- The milliseconds do not make up a second. -/
def Reading.Proper (reading : Reading) : Prop := reading.millis.toNat < 1000

namespace Reading

/-- The milliseconds go round within a second. -/
theorem toNat_millis_after (reading : Reading) (period ticks : Nat) :
    (reading.after period ticks).millis.toNat =
      (reading.millis.toNat + ticks * period) % 1000 :=
  UInt32.toNat_ofNat_of_lt' (Nat.lt_trans (Nat.mod_lt _ (by decide)) (by decide))

/-- The milliseconds stay below a second. -/
theorem proper_after (reading : Reading) (period ticks : Nat) :
    (reading.after period ticks).Proper := by
  rw [Proper, toNat_millis_after]
  exact Nat.mod_lt _ (by decide)

theorem after_zero {reading : Reading} (h : reading.Proper) (period : Nat) :
    reading.after period 0 = reading := by
  rw [Proper] at h
  rw [after, Nat.zero_mul, Nat.add_zero, Nat.div_eq_of_lt h, Nat.mod_eq_of_lt h,
    UInt32.ofNat_toNat]
  simp

/-- With words for the period and the sum, a tick comes to the same if they are large enough. -/
theorem after_one {reading : Reading} (h : reading.Proper) {period : UInt32}
    (hperiod : period.toNat + 999 < UInt32.size) :
    { seconds := reading.seconds + (reading.millis + period) / 1000
      millis := (reading.millis + period) % 1000 } = reading.after period.toNat 1 := by
  have hmillis : reading.millis.toNat < 1000 := h
  have hsum : (reading.millis + period).toNat = reading.millis.toNat + 1 * period.toNat := by
    rw [UInt32.toNat_add, Nat.one_mul]
    exact Nat.mod_eq_of_lt (Nat.lt_of_le_of_lt (by omega) hperiod)
  -- the sum does not wrap around, so both parts of it are exact
  have hseconds : (reading.millis + period) / 1000 =
      UInt32.ofNat ((reading.millis.toNat + 1 * period.toNat) / 1000) := by
    rw [← hsum]
    exact UInt32.ofNat_toNat.symm.trans (congrArg UInt32.ofNat (UInt32.toNat_div _ _))
  have hrest : (reading.millis + period) % 1000 =
      UInt32.ofNat ((reading.millis.toNat + 1 * period.toNat) % 1000) := by
    rw [← hsum]
    exact UInt32.ofNat_toNat.symm.trans (congrArg UInt32.ofNat (UInt32.toNat_mod _ _))
  rw [after, ← hseconds, ← hrest]

/-- Ticks add up: what the first of them leave over of a second is not lost for the others. -/
theorem after_after (reading : Reading) (period ticks ticks' : Nat) :
    (reading.after period ticks).after period ticks' =
      reading.after period (ticks + ticks') := by
  have hsum : reading.millis.toNat + (ticks + ticks') * period =
      reading.millis.toNat + ticks * period + ticks' * period := by
    rw [Nat.add_mul, Nat.add_assoc]
  rw [after, toNat_millis_after, after, after, hsum]
  generalize reading.millis.toNat + ticks * period = first
  generalize ticks' * period = later
  have hseconds : first / 1000 + (first % 1000 + later) / 1000 = (first + later) / 1000 := by omega
  have hmillis : (first % 1000 + later) % 1000 = (first + later) % 1000 := Nat.mod_add_mod _ _ _
  rw [UInt32.add_assoc, ← UInt32.ofNat_add, hseconds, hmillis]

end Reading

/-- What may happen to a clock. -/
inductive Action where
  /-- The clock is set to a date, whose fields may be out of range. -/
  | set (date : DateTime)
  /-- The system tick is counted. -/
  | advance
  deriving DecidableEq

/-- The seconds an action sets the clock to, if it does. -/
def Action.seconds? : Action → Option UInt32
  | set date => date.seconds?
  | advance => none

/-- The clock after an action. -/
def act (clock : SystemClock) : Action → SystemClock
  | .set date => clock.set date
  | .advance => clock.advance

/-- The clock after a sequence of actions. -/
def run (clock : SystemClock) (actions : List Action) : SystemClock := actions.foldl act clock

theorem run_append (clock : SystemClock) (actions later : List Action) :
    clock.run (actions ++ later) = (clock.run actions).run later :=
  List.foldl_append

/-- A date without seconds leaves a clock as it is, the milliseconds included. -/
theorem set_of_eq_none (clock : SystemClock) {date : DateTime} (h : date.seconds? = none) :
    clock.set date = clock := by
  rw [set, h]

/-- A date that can be counted sets the clock to its seconds. -/
theorem set_of_eq_some (clock : SystemClock) {date : DateTime} {seconds : UInt32}
    (h : date.seconds? = some seconds) :
    clock.set date = { clock with reading := some { seconds, millis := 0 } } := by
  rw [set, h]

/-- The milliseconds of the clock do not make up a second. -/
def Proper (clock : SystemClock) : Prop := ∀ reading ∈ clock.reading, reading.Proper

/-- The clock a number of ticks later, by exact arithmetic. -/
def after (clock : SystemClock) (ticks : Nat) : SystemClock :=
  { clock with reading := clock.reading.map (·.after clock.period.toNat ticks) }

theorem proper_after (clock : SystemClock) (ticks : Nat) : (clock.after ticks).Proper := by
  intro reading h
  obtain ⟨earlier, -, rfl⟩ := Option.map_eq_some_iff.1 h
  exact earlier.proper_after _ ticks

theorem after_zero {clock : SystemClock} (h : clock.Proper) : clock.after 0 = clock := by
  obtain ⟨period, _ | reading⟩ := clock
  · rfl
  · rw [after, Option.map_some, Reading.after_zero (h reading rfl)]

/-- Ticks after ticks are as many as both together. -/
theorem after_after (clock : SystemClock) (ticks ticks' : Nat) :
    (clock.after ticks).after ticks' = clock.after (ticks + ticks') := by
  obtain ⟨period, _ | reading⟩ := clock
  · rfl
  · exact congrArg (fun reading => SystemClock.mk period (some reading))
      (reading.after_after period.toNat ticks ticks')

/-- A tick is counted exactly, if a period and the milliseconds of a second fit into a word. -/
theorem advance_eq_after {clock : SystemClock} (hperiod : clock.period.toNat + 999 < UInt32.size)
    (h : clock.Proper) : clock.advance = clock.after 1 := by
  obtain ⟨period, _ | reading⟩ := clock
  · rfl
  · exact congrArg (fun reading => SystemClock.mk period (some reading))
      (Reading.after_one (h reading rfl) hperiod)

/-- Between two settings a clock only counts its ticks, as long as its time was never set as
well. -/
theorem run_of_unset {clock : SystemClock} (hperiod : clock.period.toNat + 999 < UInt32.size)
    (h : clock.Proper) {actions : List Action}
    (hunset : ∀ action ∈ actions, action.seconds? = none) :
    clock.run actions = clock.after (actions.count .advance) := by
  induction actions generalizing clock with
  | nil => exact (after_zero h).symm
  | cons action rest ih =>
    obtain ⟨hfirst, hrest⟩ := List.forall_mem_cons.1 hunset
    cases action with
    | set date =>
      have hsame : clock.act (.set date) = clock := clock.set_of_eq_none hfirst
      rw [run, List.foldl_cons, hsame]
      exact ih hperiod h hrest
    | advance =>
      have htick : clock.act .advance = clock.after 1 := advance_eq_after hperiod h
      have hnext : (clock.after 1).period.toNat + 999 < UInt32.size := hperiod
      rw [run, List.foldl_cons, htick]
      refine (ih hnext (clock.proper_after 1) hrest).trans ?_
      rw [after_after, List.count_cons_self, Nat.add_comm]

/-- Only setting a clock to a date with seconds changes whether it is set. -/
theorem isSet_run_iff (clock : SystemClock) (actions : List Action) :
    (clock.run actions).isSet = true ↔
      clock.isSet = true ∨ ∃ action ∈ actions, action.seconds? ≠ none := by
  induction actions generalizing clock with
  | nil => simp [run]
  | cons action rest ih =>
    rw [run, List.foldl_cons, ← run, ih]
    simp only [List.mem_cons, exists_eq_or_imp]
    rw [← or_assoc]
    -- it is the first action that may have made a difference
    refine or_congr_left ?_
    cases action with
    | advance => simp [act, Action.seconds?]
    | set date =>
      cases hseconds : date.seconds? with
      | none => simp [act, Action.seconds?, set, hseconds]
      | some seconds => simp [act, Action.seconds?, set, hseconds, isSet]

theorem period_run (clock : SystemClock) (actions : List Action) :
    (clock.run actions).period = clock.period := by
  induction actions generalizing clock with
  | nil => rfl
  | cons action rest ih =>
    refine (ih (clock.act action)).trans ?_
    cases action with
    | advance => rfl
    | set date =>
      rw [act, set]
      split <;> rfl

/-- A clock keeps the time. It shows zero until it is set to a date with seconds, and is set from
then on; it then shows the seconds of the last such date and the whole seconds in all of the ticks
since, modulo `2 ^ 32`. A date without seconds changes nothing. -/
theorem time_kept {period : Nat} (hperiod : period + 999 < UInt32.size) (actions : List Action) :
    let clock := (new period).run actions
    (clock.isSet = true ↔ ∃ action ∈ actions, action.seconds? ≠ none) ∧
      (clock.isSet = false → clock.utc = 0) ∧
      (∀ earlier date seconds later, actions = earlier ++ .set date :: later →
        date.seconds? = some seconds → (∀ action ∈ later, action.seconds? = none) →
        clock.utc.toNat =
          (seconds.toNat + later.count .advance * period / 1000) % UInt32.size) ∧
      ∀ date, date.seconds? = none → clock.act (.set date) = clock := by
  intro clock
  have hword : (UInt32.ofNat period).toNat = period := UInt32.toNat_ofNat_of_lt' (by omega)
  refine ⟨?_, utc_eq_zero, ?_, fun date h => clock.set_of_eq_none h⟩
  · rw [isSet_run_iff]
    exact or_iff_right nofun
  · rintro earlier date seconds later rfl hseconds hlater
    -- the clock right after it was set to the date
    let start : SystemClock := ⟨UInt32.ofNat period, some ⟨seconds, 0⟩⟩
    have hset : ((new period).run earlier).act (.set date) = start := by
      rw [act, set_of_eq_some _ hseconds, period_run]
      rfl
    have hproper : start.Proper := by
      rintro _ ⟨⟩
      exact (by decide : (0 : UInt32).toNat < 1000)
    have hclock : clock = start.after (later.count .advance) := by
      have hrun : clock = start.run later := by
        rw [← hset]
        exact run_append _ earlier (.set date :: later)
      rw [hrun]
      exact run_of_unset (by rwa [hword]) hproper hlater
    have hutc : clock.utc = seconds + UInt32.ofNat (later.count .advance * period / 1000) := by
      rw [hclock]
      show seconds +
        UInt32.ofNat ((0 + later.count .advance * (UInt32.ofNat period).toNat) / 1000) = _
      rw [hword, Nat.zero_add]
    rw [hutc, UInt32.toNat_add, UInt32.toNat_ofNat', Nat.add_mod_mod]

/-- The longest period, from the last second of 2105 on, so that two ticks pass the end of 32-bit
time. The second date has no seconds. -/
theorem time_kept_wrapping :
    let actions : List Action := [.advance, .set ⟨2105, 12, 31, 23, 59, 59⟩, .advance,
      .set ⟨2106, 12, 31, 0, 0, 0⟩, .advance]
    4294966296 + 999 < UInt32.size ∧ ((new 4294966296).run actions).utc.toNat = 5369835 := by
  intro actions
  have hperiod : 4294966296 + 999 < UInt32.size := by decide
  obtain ⟨-, -, hutc, -⟩ := time_kept hperiod actions
  refine ⟨hperiod, ?_⟩
  rw [hutc [.advance] ⟨2105, 12, 31, 23, 59, 59⟩ 4291747199
    [.advance, .set ⟨2106, 12, 31, 0, 0, 0⟩, .advance] rfl (by decide) (by decide)]
  decide

end SecureKit.SystemClock

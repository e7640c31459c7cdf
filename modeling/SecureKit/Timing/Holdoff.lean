/-!
# Holdoffs

A holdoff is a countdown in system ticks. Whoever arms it owns the resource it guards until it runs
out: it is armed with a duration in milliseconds and counts down once per tick.

* `remaining_tick` — a tick takes one from the remaining ticks.
* `remaining_arm` — arming replaces the remaining ticks by those of the duration.
-/

namespace SecureKit

/-- A countdown in units of the system tick. -/
structure Holdoff where
  /-- The tick period in milliseconds. -/
  period : Nat
  /-- The ticks left. -/
  remaining : Nat
  /-- A tick takes time. -/
  period_pos : 0 < period

namespace Holdoff

/-- The largest number of milliseconds that is ever reported. -/
def reportMax : Nat := UInt32.size - 1

/-- A released holdoff for a tick of `period` milliseconds; a period of zero counts as one. -/
def new (period : Nat) : Holdoff where
  period := max period 1
  remaining := 0
  period_pos := by omega

/-- The ticks a holdoff of tick `period` is held for when it is armed for `duration` milliseconds:
at least one, unless the duration is zero. -/
def ticksFor (period duration : Nat) : Nat :=
  if duration = 0 then 0 else max (duration / period) 1

/-- Hold for `duration` milliseconds, whatever was left before. -/
def arm (holdoff : Holdoff) (duration : Nat) : Holdoff :=
  { holdoff with remaining := ticksFor holdoff.period duration }

/-- Release at once. -/
def release (holdoff : Holdoff) : Holdoff := holdoff.arm 0

/-- Count down one tick. -/
def tick (holdoff : Holdoff) : Holdoff :=
  { holdoff with remaining := holdoff.remaining - 1 }

/-- Whether the holdoff is still counting. -/
def held (holdoff : Holdoff) : Bool := 0 < holdoff.remaining

/-- The milliseconds left. -/
def remainingTime (holdoff : Holdoff) : Nat :=
  min (holdoff.remaining * holdoff.period) reportMax

@[simp]
theorem remaining_new (period : Nat) : (new period).remaining = 0 := rfl

@[simp]
theorem period_new (period : Nat) : (new period).period = max period 1 := rfl

@[simp]
theorem remaining_arm (holdoff : Holdoff) (duration : Nat) :
    (holdoff.arm duration).remaining = ticksFor holdoff.period duration := rfl

@[simp]
theorem period_arm (holdoff : Holdoff) (duration : Nat) :
    (holdoff.arm duration).period = holdoff.period := rfl

@[simp]
theorem remaining_tick (holdoff : Holdoff) :
    holdoff.tick.remaining = holdoff.remaining - 1 := rfl

@[simp]
theorem period_tick (holdoff : Holdoff) : holdoff.tick.period = holdoff.period := rfl

@[simp]
theorem ticksFor_zero (period : Nat) : ticksFor period 0 = 0 := rfl

/-- A duration that is not zero holds for at least one tick. -/
theorem ticksFor_pos {period duration : Nat} (h : duration ≠ 0) : 0 < ticksFor period duration := by
  rw [ticksFor, if_neg h]
  exact Nat.lt_of_lt_of_le Nat.zero_lt_one (Nat.le_max_right _ 1)

/-- A holdoff is held as long as there are ticks left. -/
@[simp]
theorem held_eq_true_iff (holdoff : Holdoff) : holdoff.held = true ↔ 0 < holdoff.remaining := by
  simp [held]

@[simp]
theorem held_eq_false_iff (holdoff : Holdoff) : holdoff.held = false ↔ holdoff.remaining = 0 := by
  simp [held]

end Holdoff

end SecureKit

import SecureKit.Timing.Calendar

/-!
# Clocks

A clock shows seconds since the epoch, or zero as long as its time is not known. `SystemClock`
counts the system ticks from the last setting on, `StillClock` keeps showing what it was set to.
Setting a clock to a date whose seconds do not fit into 32 bits changes nothing. Seconds and
milliseconds are 32-bit words.
-/

namespace SecureKit

/-- A source of UTC time that can be set. -/
class Clock (κ : Type) where
  /-- Seconds since the epoch, or zero while the time is not known. -/
  utc : κ → UInt32
  /-- The clock after it was set to a date. -/
  set : κ → DateTime → κ

/-- A clock that does not run. -/
structure StillClock where
  /-- What the clock shows. -/
  now : UInt32

instance : Clock StillClock where
  utc clock := clock.now
  set clock date := ⟨date.seconds?.getD clock.now⟩

/-- The time kept by a running clock. -/
structure SystemClock.Reading where
  /-- Seconds since the epoch, modulo `2 ^ 32`. -/
  seconds : UInt32
  /-- Milliseconds into the current second. -/
  millis : UInt32

/-- A clock that the system tick advances. -/
structure SystemClock where
  /-- The tick period in milliseconds. -/
  period : UInt32
  /-- The time, once it was set. -/
  reading : Option SystemClock.Reading

namespace SystemClock

/-- A clock that is not set yet. The tick period is a 32-bit number of milliseconds. -/
def new (period : Nat) : SystemClock where
  period := UInt32.ofNat period
  reading := none

/-- Count one tick. -/
def advance (clock : SystemClock) : SystemClock :=
  { clock with
    reading := clock.reading.map fun reading =>
      -- a period of more than a second carries all its seconds at once
      let millis := reading.millis + clock.period
      { seconds := reading.seconds + millis / 1000
        millis := millis % 1000 } }

/-- Whether the clock was set. -/
def isSet (clock : SystemClock) : Bool := clock.reading.isSome

/-- What the clock shows. -/
def utc (clock : SystemClock) : UInt32 := clock.reading.elim 0 (·.seconds)

/-- Set the clock to the start of a second. -/
def set (clock : SystemClock) (date : DateTime) : SystemClock :=
  match date.seconds? with
  | some seconds => { clock with reading := some { seconds, millis := 0 } }
  | none => clock

instance : Clock SystemClock where
  utc := utc
  set := set

/-- A clock that is not set shows zero. -/
theorem utc_eq_zero {clock : SystemClock} (h : clock.isSet = false) : clock.utc = 0 := by
  simp_all [isSet, utc]

/-- Ticks neither set a clock nor unset it. -/
@[simp]
theorem isSet_advance (clock : SystemClock) : clock.advance.isSet = clock.isSet := by
  simp [advance, isSet]

end SystemClock

end SecureKit

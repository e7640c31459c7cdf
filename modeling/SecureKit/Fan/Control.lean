import SecureKit.Fan.SpeedMap
import SecureKit.Peripheral.Program

/-!
# Fan Control

The fan follows the average of the last readings through a speed map, unless a speed was ordered for
a while. The readings stand in a ring, which the first of them fills and each of the others changes
in one place. The ring holds only readings taken by the control itself, and a reading counts even if
the fan then does not answer.
-/

namespace SecureKit

open Program

/-- The number of readings that are averaged. -/
abbrev Samples.size : Nat := 4

/-- The last readings of the temperature. -/
structure Samples where
  /-- The readings, in a ring. -/
  ring : Vector Int32 Samples.size
  /-- The place of the oldest reading, which the next one takes. -/
  next : Fin Samples.size
  /-- Whether there was a reading. -/
  primed : Bool

namespace Samples

/-- The window before the first reading. -/
def new : Samples where
  ring := Vector.replicate size 0
  next := 0
  primed := false

/-- The window after a reading. The first reading fills it. -/
def push (samples : Samples) (reading : Int32) : Samples where
  ring :=
    let ring := if samples.primed then samples.ring else Vector.replicate size reading
    ring.set samples.next reading
  next := samples.next + 1
  primed := true

/-- The average, rounded toward zero. -/
def average (samples : Samples) : Int32 :=
  let sum := samples.ring.foldl (fun sum reading => sum + reading.toInt64) 0
  (sum / Int64.ofNat size).toInt32

end Samples

/-- The state of the fan control. -/
structure FanControl where
  /-- The speed map in force. -/
  map : SpeedMap
  /-- The last readings. -/
  samples : Samples
  /-- The speed that was ordered last. -/
  overrideRpm : UInt16
  /-- The time until which it is kept. -/
  overrideEnd : UInt32

namespace FanControl

/-- The control with the standard map, no readings and no ordered speed. -/
def new : FanControl where
  map := .standard
  samples := .new
  overrideRpm := 0
  overrideEnd := 0

/-- Whether an ordered speed is to be kept at a time. -/
def overrideActive (control : FanControl) (now : UInt32) : Bool := now < control.overrideEnd

/-- Replace the speed map. -/
def setMap (control : FanControl) (map : SpeedMap) : FanControl := { control with map }

/-- Keep a speed up to a time. -/
def setOverride (control : FanControl) (rpm : UInt16) (limit : UInt32) : FanControl :=
  { control with overrideRpm := rpm, overrideEnd := limit }

/-- Set the fan to a speed. -/
def drive (rpm : UInt16) : Program (Except FanError UInt16) := do
  match ← perform (.setFanSpeed rpm) with
  | .error error => return .error error
  | .ok () => return .ok rpm

/-- Do one step of the control. Returns the speed that was set. -/
def update (control : FanControl) : Program (Except FanError UInt16 × FanControl) := do
  if control.overrideActive (← perform .utc) then
    return (← drive control.overrideRpm, control)
  else
    match ← perform .temperature with
    | .error error => return (.error error, control)
    | .ok reading =>
      -- the reading is kept whether the fan answers or not
      let control := { control with samples := control.samples.push reading }
      return (← drive (control.map.speedFor control.samples.average.toInt), control)

/-- A step of the control as a task, whose failures are passed over. -/
def poll (control : FanControl) : Program FanControl := do
  let (_, control) ← control.update
  return control

end FanControl

end SecureKit

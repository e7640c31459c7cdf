import SecureKit.Timing.Word

/-!
# Speed Maps

A speed map gives the fan speed for a temperature: the speed of the last step whose threshold lies
below it. Temperatures are in thousandths of a degree Celsius, speeds in turns per minute.

* `length_ofDegrees_le` — a map made from degrees has at most `entriesMax` steps.
* `speedFor_empty` — without steps the fan stands still.
-/

namespace SecureKit

/-- A step of a speed map. -/
structure SpeedMap.Entry where
  /-- The step applies above this temperature. -/
  threshold : Int
  /-- The speed of the step. -/
  rpm : UInt16
  deriving DecidableEq

/-- The steps from temperatures to speeds, in order. -/
structure SpeedMap where
  /-- The steps. -/
  entries : List SpeedMap.Entry
  deriving DecidableEq

namespace SpeedMap

/-- The largest number of steps. -/
def entriesMax : Nat := 8

/-- The highest temperature a threshold can have. -/
def thresholdMax : Nat := 0x7FFFFFFF

/-- The highest speed. -/
def rpmMax : Nat := UInt16.size - 1

/-- The map in force until another one is set. -/
def standard : SpeedMap where
  entries := [⟨0, 0⟩, ⟨24000, 1000⟩, ⟨24500, 1500⟩, ⟨25000, 2000⟩, ⟨25500, 2500⟩, ⟨26000, 3000⟩,
    ⟨27000, 4000⟩]

/-- The map without steps. -/
def empty : SpeedMap where
  entries := []

/-- The step above whole `degrees`; both numbers are cut to what a step can hold. -/
def Entry.ofDegrees (degrees rpm : UInt32) : Entry where
  -- the product is cut to a word before it is cut to a temperature
  threshold := min (Word.saturatingMul degrees 1000).toNat thresholdMax
  rpm := UInt16.ofNat (min rpm.toNat rpmMax)

/-- The map of the first `entriesMax` of the given pairs of degrees and speed. -/
def ofDegrees (pairs : List (UInt32 × UInt32)) : SpeedMap where
  entries := (pairs.take entriesMax).map fun (degrees, rpm) => Entry.ofDegrees degrees rpm

/-- The speed at a temperature, zero below all steps. -/
def speedFor (map : SpeedMap) (temperature : Int) : UInt16 :=
  match map.entries.reverse.find? (·.threshold < temperature) with
  | some entry => entry.rpm
  | none => 0

/-- A map made from degrees has at most `entriesMax` steps. -/
theorem length_ofDegrees_le (pairs : List (UInt32 × UInt32)) :
    (ofDegrees pairs).entries.length ≤ entriesMax := by
  rw [ofDegrees, List.length_map]
  exact List.length_take_le entriesMax pairs

/-- Without steps the fan stands still. -/
@[simp]
theorem speedFor_empty (temperature : Int) : empty.speedFor temperature = 0 := rfl

end SpeedMap

end SecureKit

import SecureKit.Fan.SpeedMap
import SecureKit.Json.Reader
import SecureKit.Json.Writer
import SecureKit.Text.Binary32

/-!
# Cloud Messages

The board publishes telemetry and receives configuration messages, both as JSON objects. All members
of a configuration message are optional; unknown members are passed over, and a member that is given
twice makes the message unusable. `ConfigMessage.json` is how the other side writes a message.
-/

namespace SecureKit

/-- A telemetry message. -/
structure Telemetry where
  /-- When the values were taken, in seconds since the epoch. -/
  timestamp : UInt32
  /-- The temperature in thousandths of a degree. -/
  temperature : Int
  /-- The measured fan speed. -/
  fanSpeed : UInt16

namespace Telemetry

/-- The message as a JSON object, with the temperature in degrees. -/
def json (telemetry : Telemetry) : Bytes :=
  Json.object [
    Json.member "timestamp" (Decimal.digits telemetry.timestamp.toNat),
    Json.member "temperature" (Binary32.thousandths telemetry.temperature),
    Json.member "fan-speed" (Decimal.digits telemetry.fanSpeed.toNat)]

end Telemetry

/-- A fan speed to be kept for a while. -/
structure SpeedOverride where
  /-- The speed. -/
  rpm : UInt16
  /-- For how many seconds. -/
  duration : UInt32
  deriving DecidableEq

/-- A configuration message. -/
structure ConfigMessage where
  /-- The pairs of degrees and speed of a new speed map. -/
  speedMap : Option (List (UInt32 × UInt32))
  /-- A speed to be kept for a while. -/
  speedOverride : Option SpeedOverride
  /-- A new telemetry period in milliseconds. -/
  updateRate : Option UInt32
  deriving DecidableEq

/-- A speed override as a JSON object. -/
def SpeedOverride.json (speed : SpeedOverride) : Bytes :=
  Json.object [
    Json.member "fan-speed" (Decimal.digits speed.rpm.toNat),
    Json.member "duration" (Decimal.digits speed.duration.toNat)]

namespace ConfigMessage

/-- The pairs of a speed map as a JSON array. -/
def speedMapJson (pairs : List (UInt32 × UInt32)) : Bytes :=
  Json.array (pairs.map fun (degrees, rpm) =>
    Json.array [Decimal.digits degrees.toNat, Decimal.digits rpm.toNat])

/-- The members of a message that are present, as members of a JSON object. -/
def members (message : ConfigMessage) : List Bytes :=
  (message.speedMap.map fun pairs => Json.member "fan-speed-map" (speedMapJson pairs)).toList ++
    (message.speedOverride.map fun speed => Json.member "override" speed.json).toList ++
    (message.updateRate.map fun rate =>
      Json.member "update-rate" (Decimal.digits rate.toNat)).toList

/-- The message as a JSON object. -/
def json (message : ConfigMessage) : Bytes := Json.object message.members

open Json Reader

/-- A 32-bit number. -/
def word : Reader UInt32 := UInt32.ofNat <$> natural UInt32.size

/-- A pair of degrees and speed. -/
def readPair (fuel : Nat) : Reader (UInt32 × UInt32) := do
  match ← array word fuel with
  | [degrees, rpm] => return (degrees, rpm)
  | _ => fail

/-- A speed map, of as many pairs as a map has steps. -/
def readSpeedMap (fuel : Nat) : Reader (List (UInt32 × UInt32)) := do
  let pairs ← array (readPair fuel) fuel
  if pairs.length ≤ SpeedMap.entriesMax then return pairs else fail

/-- Read a member of a speed override. -/
def readOverrideMember (depth : Nat) (name : String) :
    Option UInt16 × Option UInt32 → Reader (Option UInt16 × Option UInt32)
  | (rpm, duration) =>
    match name with
    | "fan-speed" => return (← once rpm (UInt16.ofNat <$> natural UInt16.size), duration)
    | "duration" => return (rpm, ← once duration word)
    | _ => do
      skip depth
      return (rpm, duration)

/-- A speed override, which has both members. -/
def readOverride (fuel : Nat) : Reader SpeedOverride := do
  match ← object (readOverrideMember fuel) fuel (none, none) with
  | (some rpm, some duration) => return { rpm, duration }
  | _ => fail

/-- The members of a message read so far. A member may be `null`, which counts as given. -/
structure Draft where
  speedMap : Option (Option (List (UInt32 × UInt32))) := none
  speedOverride : Option (Option SpeedOverride) := none
  updateRate : Option (Option UInt32) := none

/-- Read the value of the member called `name` into a draft. -/
def Draft.readMember (fuel : Nat) (name : String) (draft : Draft) : Reader Draft :=
  match name with
  | "fan-speed-map" =>
    return { draft with speedMap := ← once draft.speedMap (nullable (readSpeedMap fuel)) }
  | "override" =>
    return { draft with speedOverride := ← once draft.speedOverride (nullable (readOverride fuel)) }
  | "update-rate" =>
    return { draft with updateRate := ← once draft.updateRate (nullable word) }
  | _ => do
    skip fuel
    return draft

/-- The message of a complete draft. -/
def Draft.finish (draft : Draft) : ConfigMessage where
  speedMap := draft.speedMap.join
  speedOverride := draft.speedOverride.join
  updateRate := draft.updateRate.join

/-- The configuration message in a JSON text. -/
def ofJson? (json : Bytes) : Option ConfigMessage :=
  (document (fun fuel => object (Draft.readMember fuel) fuel {}) json).map Draft.finish

end ConfigMessage

end SecureKit

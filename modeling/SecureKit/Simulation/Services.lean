import SecureKit.Json.Writer
import SecureKit.Peripheral.Call
import SecureKit.Simulation.Faults

/-!
# Simulated Services

The host link, the fan with its sensor, the network session and the token signer, each answering
from a script.
-/

namespace SecureKit

/-- A host link that accepts reports by a script. -/
structure SimulatedHost where
  /-- Whether the next reports are accepted. -/
  accept : List Bool
  /-- Whether those after the script are. -/
  otherwise : Bool

namespace SimulatedHost

/-- Offer a report. -/
def report (host : SimulatedHost) : Bool × SimulatedHost :=
  match host.accept with
  | [] => (host.otherwise, host)
  | accepted :: accept => (accepted, { host with accept })

end SimulatedHost

/-- A fan with a temperature sensor. -/
structure SimulatedFan where
  /-- The readings to come. -/
  readings : List (Except FanError Int32)
  /-- The last temperature, which is read again after the script. -/
  temperature : Int32
  /-- The measured speeds to come. -/
  speeds : List (Except FanError UInt16)
  /-- The speed to keep, which is measured after the script. -/
  target : UInt16
  /-- The scripted faults of setting the speed. -/
  faults : Faults Unit FanError

namespace SimulatedFan

/-- Read the temperature. -/
def read (fan : SimulatedFan) : Except FanError Int32 × SimulatedFan :=
  match fan.readings with
  | [] => (.ok fan.temperature, fan)
  | .ok temperature :: readings => (.ok temperature, { fan with readings, temperature })
  | .error error :: readings => (.error error, { fan with readings })

/-- Set the speed. -/
def set (fan : SimulatedFan) (rpm : UInt16) : Except FanError Unit × SimulatedFan :=
  match fan.faults.take () with
  | (some error, faults) => (.error error, { fan with faults })
  | (none, faults) => (.ok (), { fan with faults, target := rpm })

/-- Measure the speed. -/
def measure (fan : SimulatedFan) : Except FanError UInt16 × SimulatedFan :=
  match fan.speeds with
  | [] => (.ok fan.target, fan)
  | speed :: speeds => (speed, { fan with speeds })

end SimulatedFan

/-- The session operations that can be told to fail. -/
inductive SimulatedCloud.Operation where
  | openSocket
  | connect
  | subscribe
  | publish
  | pollMessage
  deriving DecidableEq

/-- What a simulated signer does. -/
inductive SimulatedCloud.Token where
  /-- It gives the claims as they are. -/
  | claims
  /-- It fails. -/
  | failed (error : CloudError)
  /-- It gives a token. -/
  | signed (content : Bytes)

/-- A network session with a token signer, for a clock of type `κ`. -/
structure SimulatedCloud (κ : Type) where
  /-- What the answers to requests for the time do to the clock. -/
  times : List (κ → κ)
  /-- The scripted faults. -/
  faults : Faults SimulatedCloud.Operation CloudError
  /-- The messages to come. -/
  inbox : List Bytes
  /-- Whether the network is lost. -/
  networkError : Bool
  /-- What the signer does next. -/
  tokens : List SimulatedCloud.Token

namespace SimulatedCloud

variable {κ : Type}

/-- Do an operation, which may be told to fail. -/
def attempt (cloud : SimulatedCloud κ) (operation : Operation) :
    Except CloudError Unit × SimulatedCloud κ :=
  let (fault, faults) := cloud.faults.take operation
  (fault.elim (.ok ()) .error, { cloud with faults })

/-- Content delivered into a buffer of `room` bytes: what does not fit is not stored, but
counted. -/
def deliver (room : Nat) (content : Bytes) : Delivery := ⟨content.take room, content.length⟩

/-- Fetch the next message. -/
def poll (cloud : SimulatedCloud κ) (room : Nat) :
    Except CloudError (Option Delivery) × SimulatedCloud κ :=
  match cloud.attempt .pollMessage with
  | (.error error, cloud) => (.error error, cloud)
  | (.ok (), cloud) =>
    match cloud.inbox with
    | [] => (.ok none, cloud)
    | message :: inbox => (.ok (some (deliver room message)), { cloud with inbox })

/-- Sign claims. -/
def sign (cloud : SimulatedCloud κ) (claims : Claims) (room : Nat) :
    Except CloudError Delivery × SimulatedCloud κ :=
  let plain : Except CloudError Delivery :=
    match Json.fitting? room claims.json with
    | some content => .ok (deliver room content)
    | none => .error .serialize
  match cloud.tokens with
  | [] => (plain, cloud)
  | .claims :: tokens => (plain, { cloud with tokens })
  | .failed error :: tokens => (.error error, { cloud with tokens })
  | .signed content :: tokens => (.ok (deliver room content), { cloud with tokens })

/-- Ask for the time. -/
def requestTime (cloud : SimulatedCloud κ) (clock : κ) : κ × SimulatedCloud κ :=
  match cloud.times with
  | [] => (clock, cloud)
  | time :: times => (time clock, { cloud with times })

end SimulatedCloud

end SecureKit

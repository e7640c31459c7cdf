import SecureKit.Cloud.Error
import SecureKit.Cloud.Token
import SecureKit.Element.Error
import SecureKit.Element.Identity
import SecureKit.Timing.Calendar

/-!
# Peripheral Calls

All that the kit asks of the hardware and services around it: the bus of the secure element, the
delay timer, the report endpoint of the host link, the clock, the temperature sensor and the fan,
the network session and the token signer. `Call.Reply` is what each of them may answer; nothing is
assumed about the answers, and in particular a length that is reported need not agree with the bytes
that were stored.
-/

namespace SecureKit

/-- What a bus operation leaves: the bytes it stored at the start of the receive buffer, and its
result. Bytes may have been stored although the operation failed. -/
structure Exchange (α : Type) where
  /-- The bytes stored. -/
  stored : Bytes
  /-- The result. -/
  outcome : Except DeviceError α

/-- Bytes delivered into a buffer. -/
structure Delivery where
  /-- The bytes stored at the start of the buffer. -/
  stored : Bytes
  /-- The reported length. -/
  length : Nat

/-- A call of a peripheral. -/
inductive Call where
  /-- Send the wake token to the device and check its response. -/
  | wake
  /-- Put the device into idle mode, in which it keeps its state. -/
  | idle
  /-- Put the device to sleep. -/
  | sleep
  /-- Send a frame to the device. -/
  | send (frame : Bytes)
  /-- Receive at most `room` bytes from the device. -/
  | receive (room : Nat)
  /-- Ask for the device address in use. -/
  | address
  /-- Use another device address. -/
  | select (address : UInt8)
  /-- Ask for the kind of the bus. -/
  | busType
  /-- Ask for the execution time of an opcode. -/
  | executionTime (opcode : UInt8)
  /-- Wait. -/
  | delay (millis : UInt32)
  /-- Hand a report to the host link. -/
  | report (data : Bytes)
  /-- Ask for the time. -/
  | utc
  /-- Set the clock. -/
  | setClock (date : DateTime)
  /-- Read the temperature. -/
  | temperature
  /-- Set the speed the fan shall keep. -/
  | setFanSpeed (rpm : UInt16)
  /-- Measure the fan speed. -/
  | fanSpeed
  /-- Ask the network for the time, which sets the clock when it arrives. -/
  | requestTime
  /-- Open a secure connection. -/
  | openSocket (host : String) (port : UInt16)
  /-- Open a message session. -/
  | connect (login : Login)
  /-- Subscribe to a topic. -/
  | subscribe (topic : String)
  /-- Publish a message. -/
  | publish (topic : String) (id : UInt16) (payload : Bytes)
  /-- Fetch a message of at most `room` bytes, if one has arrived. -/
  | pollMessage (room : Nat)
  /-- Ask whether the network was lost. -/
  | hasError
  /-- Sign a token of at most `room` bytes. -/
  | sign (claims : Claims) (room : Nat)
  deriving DecidableEq

namespace Call

/-- What a call may answer. -/
@[reducible]
def Reply : Call → Type
  | wake | idle | sleep | send _ => Except DeviceError Unit
  | receive _ => Exchange Nat
  | address => UInt8
  | busType => BusType
  | executionTime _ => Except DeviceError UInt32
  | select _ | delay _ | setClock _ | requestTime => Unit
  | report _ | hasError => Bool
  | utc => UInt32
  | temperature => Except FanError Int32
  | setFanSpeed _ => Except FanError Unit
  | fanSpeed => Except FanError UInt16
  | openSocket _ _ | connect _ | subscribe _ | publish _ _ _ => Except CloudError Unit
  | pollMessage _ => Except CloudError (Option Delivery)
  | sign _ _ => Except CloudError Delivery

end Call

/-- A call together with its answer. -/
structure Event where
  /-- The call. -/
  call : Call
  /-- The answer. -/
  reply : call.Reply

end SecureKit

import SecureKit.Element.Discovery
import SecureKit.Simulation.Faults

/-!
# A Simulated Bus

A bus with devices of one kind, of which each call is answered from a script: which addresses wake,
what the next responses are, and which calls fail. The responses of the script are given in order,
whatever was asked for. Only when there are none left, a device with a revision answers a request
for it by itself.
-/

namespace SecureKit

/-- The bus operations that can be told to fail. -/
inductive SimulatedBus.Operation where
  | wake
  | idle
  | sleep
  | send
  | receive
  deriving DecidableEq

/-- A simulated bus. -/
structure SimulatedBus where
  /-- The address in use. -/
  address : UInt8
  /-- The addresses that wake; all of them, if there is no list. -/
  present : Option (List UInt8)
  /-- The revision that is reported on request. -/
  revision : Option Bytes
  /-- The responses to come. -/
  responses : List Bytes
  /-- The scripted faults. -/
  faults : Faults SimulatedBus.Operation DeviceError
  /-- The execution times that are known; the standard ones, if there is no list. -/
  executionTimes : Option (List (UInt8 × Except DeviceError UInt32))
  /-- The opcode of the last command. -/
  lastOpcode : UInt8

namespace SimulatedBus

/-- Do an operation, which may be told to fail. -/
def attempt (bus : SimulatedBus) (operation : Operation) : Except DeviceError Unit × SimulatedBus :=
  let (fault, faults) := bus.faults.take operation
  (fault.elim (.ok ()) .error, { bus with faults })

/-- Wake the device at the address in use. -/
def wake (bus : SimulatedBus) : Except DeviceError Unit × SimulatedBus :=
  match bus.attempt .wake with
  | (.error error, bus) => (.error error, bus)
  | (.ok (), bus) =>
    (if bus.present.elim true (·.contains bus.address) then .ok () else .error .wakeFailed, bus)

/-- Send a frame. -/
def send (bus : SimulatedBus) (frame : Bytes) : Except DeviceError Unit × SimulatedBus :=
  match bus.attempt .send with
  | (.error error, bus) => (.error error, bus)
  | (.ok (), bus) => (.ok (), { bus with lastOpcode := frame.getD 2 0 })

/-- The next response: that of the script, or else the revision, if it was asked for. -/
def respond? (bus : SimulatedBus) : Option (Bytes × SimulatedBus) :=
  match bus.responses with
  | response :: responses => some (response, { bus with responses })
  | [] =>
    if bus.lastOpcode = Command.info.opcode then
      bus.revision.map fun revision =>
        (Element.withChecksum ((revision.length + 1 + Checksum.size).toUInt8 :: revision), bus)
    else none

/-- Receive into a buffer of `room` bytes. -/
def receive (bus : SimulatedBus) (room : Nat) : Exchange Nat × SimulatedBus :=
  match bus.attempt .receive with
  | (.error error, bus) => (.failed error, bus)
  | (.ok (), bus) =>
    match bus.respond? with
    | none => (.failed .rxNoResponse, bus)
    | some (response, bus) => (⟨response.take room, .ok (min response.length room)⟩, bus)

/-- The execution time of an opcode. -/
def executionTime (bus : SimulatedBus) (opcode : UInt8) : Except DeviceError UInt32 :=
  match bus.executionTimes with
  | none => Command.defaultExecutionTime opcode
  | some times => (times.lookup opcode).getD (.error .badOpcode)

end SimulatedBus

end SecureKit

import SecureKit.Element.Discovery
import SecureKit.Host.Line
import SecureKit.Host.Report
import SecureKit.Protocol.Firmware
import SecureKit.Protocol.Request
import SecureKit.Protocol.TransmitBuffer
import SecureKit.Timing.Holdoff

/-!
# The Kit Engine

The engine answers the command lines of the host. A line is carried out to its end and answered with
one frame:

* on the device path, the status and the bytes of the device, as many as the count in front of them
  says;
* on the board path, a plain text first, then the frame of status and payload.

A line that came through the queue takes the kit lock before the device is used.
-/

namespace SecureKit

open Program

/-- How long the kit keeps the bus after a line, in milliseconds. -/
def kitHoldoff : Nat := 5000

/-- The address at which the device is expected. -/
def defaultAddress : UInt8 := 0xB0

/-- What a response on the device path carries when its command has succeeded. -/
inductive Payload where
  /-- Nothing. -/
  | empty
  /-- The bytes the device has stored, counted by the first of them. -/
  | counted
  deriving DecidableEq

/-- The answer to a device command. -/
structure DeviceAnswer where
  /-- The bytes stored behind the status. -/
  stored : Bytes
  /-- What to send of them, or why the command failed. -/
  outcome : Except Failure Payload

namespace DeviceAnswer

/-- The answer of a command that moves no data. -/
def ofResult (result : Except DeviceError Unit) : DeviceAnswer where
  stored := []
  outcome :=
    match result with
    | .ok () => .ok .empty
    | .error error => .error (.device error)

/-- The answer with the bytes of an exchange. -/
def ofExchange (exchange : Exchange Nat) : DeviceAnswer where
  stored := exchange.stored
  outcome :=
    match exchange.outcome with
    | .ok _ => .ok .counted
    | .error error => .error (.device error)

/-- The answer of a command that succeeds by itself. -/
def accepted : DeviceAnswer := ⟨[], .ok .empty⟩

/-- The answer of a command the kit refuses. -/
def refused (status : KitStatus) : DeviceAnswer := ⟨[], .error (.kit status)⟩

end DeviceAnswer

/-- The room for device bytes in the transmit buffer. -/
def deviceRoom : Nat := Frame.bufferSize - 1

/-- Carry out a command for the bus. -/
def PhysicalCommand.run : PhysicalCommand → Program DeviceAnswer
  | missing => return .accepted
  | wake => return .ofResult (← Element.wake)
  | send none => return .refused .invalidParams
  | send (some packet) => return .ofResult (← Element.send packet).outcome
  | receive none | receive (some []) => return .refused .invalidParams
  | receive (some (size :: _)) => return .ofExchange (← Element.receive size.toNat deviceRoom)
  | select (some []) => return .refused .invalidParams
  | select (some (address :: _)) => do
    Element.select address
    return .accepted
  | select none => return .ofResult (← Element.idle)
  | unknown => return .refused .unknownCommand

/-- Carry out a command for the device. -/
def DeviceCommand.run : DeviceCommand → Program DeviceAnswer
  | empty => return .accepted
  | talk none => return .refused .invalidParams
  | talk (some packet) => return .ofExchange (← Element.talk packet deviceRoom)
  | wake => return .ofResult (← Element.wake)
  | sleep => return .ofResult (← Element.sleep)
  | idle => return .ofResult (← Element.idle)
  | autoWrap none => return .refused .invalidParams
  | autoWrap (some _) => return .accepted
  | physical command => command.run
  | unknown => return .refused .unknownCommand

/-- The answer to a board command. -/
structure BoardAnswer where
  /-- The text in front of the frame. -/
  label : String
  /-- The payload of the frame, or why the command failed. -/
  outcome : Except Failure Bytes

namespace BoardAnswer

/-- The answer of a command the kit refuses. -/
def refused (status : KitStatus) : BoardAnswer := ⟨"", .error (.kit status)⟩

/-- The report about the device at an index of the device table. -/
def ofDevice (devices : Element.DeviceTable) (index : UInt8) : BoardAnswer :=
  match devices[index.toNat]? with
  | none => refused .noDevice
  | some info =>
    if info.deviceType = .unknown then ⟨info.deviceType.label, .error (.kit .noDevice)⟩
    else if info.busType = .unknown then ⟨info.deviceType.label, .ok []⟩
    else ⟨info.deviceType.label ++ info.busType.label, .ok [info.selector]⟩

/-- The report about the firmware part at an index. -/
def ofFirmware (index : UInt8) : BoardAnswer :=
  match FirmwarePart.at? index with
  | none => refused .invalidParams
  | some part => ⟨part.name, .ok part.version⟩

end BoardAnswer

/-- The application opcode that sets the clock. -/
def setTimeOpcode : UInt8 := 0x00

/-- Carry out an application command. -/
def runApplication : Bytes → Program (Except DeviceError Unit)
  | [] => return .error .badParam
  | opcode :: record =>
    if opcode = setTimeOpcode then
      match DateTime.ofPacked? record with
      | none => return .error .parseError
      | some date => do
        perform (.setClock date)
        return .ok ()
    else return .error .parseError

/-- Carry out a board command. Also returns the device table afterwards. -/
def BoardCommand.run (devices : Element.DeviceTable) :
    BoardCommand → Program (BoardAnswer × Element.DeviceTable)
  | application none => return (.refused .invalidParams, devices)
  | application (some load) => do
    match ← runApplication load with
    | .ok () => return (⟨"", .ok []⟩, devices)
    | .error error => return (⟨"", .error (.device error)⟩, devices)
  | version | unknown => return (.refused .unknownCommand, devices)
  | firmware none | firmware (some []) => return (.refused .invalidParams, devices)
  | firmware (some (index :: _)) => return (.ofFirmware index, devices)
  | discover none | discover (some []) => return (.refused .invalidParams, devices)
  | discover (some (index :: _)) => do
    let (devices, _) ← Element.discover
    return (.ofDevice devices index, devices)

/-- The state of the engine. -/
structure Engine where
  /-- The devices found by the last discovery. -/
  devices : Element.DeviceTable
  /-- The buffer for responses. -/
  transmit : TransmitBuffer
  /-- The lock that keeps the other tasks off the bus. -/
  lock : Holdoff

namespace Engine

/-- The engine that knows no device, with a lock of the given tick period. -/
def new (period : Nat) : Engine where
  devices := []
  transmit := .blank
  lock := .new period

/-- Look for devices. -/
def discover (engine : Engine) : Program (Except DeviceError Unit × Engine) := do
  let (devices, outcome) ← Element.discover
  return (outcome.map fun _ => (), { engine with devices })

/-- Put a response without text and payload into the transmit buffer. Returns its size. -/
def respondStatus (engine : Engine) (status : KitStatus) : Nat × Engine :=
  let (size, transmit) := (engine.transmit.store 0 [status.code]).frameFrom 0 1
  (size, { engine with transmit })

/-- Put the response to a device command into the transmit buffer. Returns its size. -/
def respondDevice (engine : Engine) (answer : DeviceAnswer) : Nat × Engine :=
  let received := engine.transmit.store 1 answer.stored
  let (status, length) : UInt8 × Nat :=
    match answer.outcome with
    | .ok .empty => (KitStatus.success.code, 0)
    | .ok .counted => (KitStatus.success.code, (received.byte 1).toNat)
    | .error failure => (failure.code, 0)
  let (size, transmit) := (received.store 0 [status]).frameCut (length + 1)
  (size, { engine with transmit })

/-- Put the response to a board command into the transmit buffer. Returns its size. -/
def respondBoard (engine : Engine) (answer : BoardAnswer) : Nat × Engine :=
  let label := Bytes.ofText answer.label
  let (status, payload) : UInt8 × Bytes :=
    match answer.outcome with
    | .ok payload => (KitStatus.success.code, payload)
    | .error failure => (failure.code, [])
  let filled := (engine.transmit.store 0 label).store label.length (status :: payload)
  let (size, transmit) := filled.frameFrom label.length (payload.length + 1)
  (size, { engine with transmit })

/-- Carry out a line and put the response into the transmit buffer, which is cleared before. Returns
the size of the response. -/
def dispatch (engine : Engine) (line : Bytes) : Program (Nat × Engine) := do
  let engine := { engine with transmit := .blank }
  match Request.ofReceived line with
  | .device command => return engine.respondDevice (← command.run)
  | .board command =>
    let (answer, devices) ← command.run engine.devices
    return { engine with devices }.respondBoard answer
  | .unknown => return engine.respondStatus .unknownCommand

/-- Carry out a line. Returns the response. -/
def process (engine : Engine) (line : Bytes) : Program (Bytes × Engine) := do
  let (size, engine) ← engine.dispatch line
  return (engine.transmit.content size, engine)

/-- Put the response to a received line into the transmit buffer. A line that was too long is not
carried out, and the buffer is not cleared for it. Returns the size of the response. -/
def respond (engine : Engine) (line : ReceivedLine) : Program (Nat × Engine) :=
  if line.overflow then return engine.respondStatus .rxOverflow
  else engine.dispatch line.data

/-- Answer the oldest line of the queue, if there is one, and send the response. Returns whether
there was one. -/
def poll (engine : Engine) (queue : LineQueue) : Program (Bool × Engine × LineQueue) :=
  match queue.dequeue? with
  | none => return (false, engine, queue)
  | some (line, queue) => do
    -- the lock is taken before the device is used, and for long lines as well
    let engine := { engine with lock := engine.lock.arm kitHoldoff }
    let (size, engine) ← engine.respond line
    let _ ← Report.send (engine.transmit.content size)
    return (true, engine, queue)

end Engine

end SecureKit

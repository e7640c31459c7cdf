import SecureKit.Element.Command
import SecureKit.Peripheral.Program

/-!
# Transactions

The operations on the secure element. A transaction wakes the device, does its steps up to the first
that fails and puts the device into idle mode in any case; the first failure is the one reported
(`Exchange.idled`). Nothing is retried.

A command packet is checked before the device is woken (`Order.ofPacket`), and only its counted
bytes are sent.
-/

namespace SecureKit

namespace Exchange

variable {α : Type}

/-- The exchange of an operation that failed before anything was received. -/
def failed (error : DeviceError) : Exchange α := ⟨[], .error error⟩

/-- The exchange after the device was put into idle mode: a failure of the operation hides one of
the idling. -/
def idled (exchange : Exchange α) (idle : Except DeviceError Unit) : Exchange α :=
  { exchange with
    outcome :=
      match exchange.outcome, idle with
      | .ok value, .ok () => .ok value
      | .ok _, .error error => .error error
      | .error error, _ => .error error }

@[simp]
theorem stored_idled (exchange : Exchange α) (idle : Except DeviceError Unit) :
    (exchange.idled idle).stored = exchange.stored := rfl

/-- Idling that succeeds changes nothing about an exchange. -/
theorem idled_ok (exchange : Exchange α) : exchange.idled (.ok ()) = exchange := by
  obtain ⟨stored, outcome⟩ := exchange
  cases outcome <;> rfl

/-- An exchange succeeds if both the operation and the idling did. -/
theorem idled_eq_ok_iff {exchange : Exchange α} {idle : Except DeviceError Unit} {value : α} :
    (exchange.idled idle).outcome = .ok value ↔ exchange.outcome = .ok value ∧ idle = .ok () := by
  cases idle <;> cases h : exchange.outcome <;> simp [idled, h]

end Exchange

namespace Element

open Program

/-- A command packet that was accepted. -/
structure Order where
  /-- The bytes sent to the bus: a slot for the interface, which holds the count, and the counted
  bytes of the packet. -/
  frame : Bytes
  /-- The command. -/
  command : Command
  /-- The length of its response. -/
  responseLength : Nat

/-- The largest frame. -/
def frameMax : Nat := commandMax + 1

/-- The smallest count of a command packet. -/
def countMin : Nat := 3

/-- Check a counted command packet. Bytes after the counted ones are dropped. -/
def Order.ofPacket (packet : Bytes) : Except DeviceError Order :=
  match packet with
  | [] => .error .badParam
  | count :: _ =>
    if count.toNat < countMin ∨ packet.length < count.toNat ∨ commandMax < count.toNat then
      .error .invalidSize
    else
      let counted := packet.take count.toNat
      -- the count stands twice in the frame: the interface uses the first place for its own mark
      match Command.ofPacket? counted with
      | none => .error .badOpcode
      | some (command, param1) =>
        .ok { frame := count :: counted, command, responseLength := command.responseLength param1 }

/-- Wake the device. -/
def wake : Program (Except DeviceError Unit) := perform .wake

/-- Put the device into idle mode. -/
def idle : Program (Except DeviceError Unit) := perform .idle

/-- Put the device to sleep. -/
def sleep : Program (Except DeviceError Unit) := perform .sleep

/-- Address another device on the bus. -/
def select (address : UInt8) : Program Unit := perform (.select address)

/-- Do an operation with the device awake. If it wakes, it is put into idle mode afterwards. -/
def awake {α : Type} (operation : Program (Exchange α)) : Program (Exchange α) := do
  match ← perform .wake with
  | .error error => return .failed error
  | .ok () =>
    let exchange ← operation
    return exchange.idled (← perform .idle)

/-- Receive into a buffer of `room` bytes. -/
def receiveInto (room : Nat) : Program (Exchange Nat) := do
  let exchange ← perform (.receive room)
  return { exchange with stored := exchange.stored.take room }

/-- Send a frame, wait for the device to execute it, and go on. -/
def sendAnd {α : Type} (frame : Bytes) (millis : UInt32) (rest : Program (Exchange α)) :
    Program (Exchange α) := do
  match ← perform (.send frame) with
  | .error error => return .failed error
  | .ok () =>
    perform (.delay millis)
    rest

/-- Send a command packet and receive its response into a buffer of `room` bytes, which must be able
to hold it. The result is the number of bytes received. -/
def talk (packet : Bytes) (room : Nat) : Program (Exchange Nat) :=
  match Order.ofPacket packet with
  | .error error => return .failed error
  | .ok order => do
    match ← perform (.executionTime order.command.opcode) with
    | .error error => return .failed error
    | .ok millis =>
      -- this is the last check before the device is woken
      if room < order.responseLength then return .failed .smallBuffer
      else awake (sendAnd order.frame millis (receiveInto order.responseLength))

/-- Send a command packet and wait out its execution, but leave the response for a later
`receive`. -/
def send (packet : Bytes) : Program (Exchange Unit) :=
  match Order.ofPacket packet with
  | .error error => return .failed error
  | .ok order => do
    match ← perform (.executionTime order.command.opcode) with
    | .error error => return .failed error
    | .ok millis => awake (sendAnd order.frame millis (return ⟨[], .ok ()⟩))

/-- Receive a pending response of at most `size` bytes into a buffer of `room` bytes. -/
def receive (size room : Nat) : Program (Exchange Nat) := awake (receiveInto (min size room))

end Element

end SecureKit

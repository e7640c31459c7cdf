import SecureKit.Proofs.Element.Calls
import SecureKit.Proofs.Element.Fault
import SecureKit.Proofs.Protocol.Engine

/-!
# What Carrying Out a Line Touches

A line uses the bus of the device and may set the clock, and both only if its request asks for it.
It has no eye on the kit lock: the response is the same whether the lock was taken before or not.

* `Request.Allows` — the calls that a request may make.
* `Engine.callsOnly_dispatch`, `Engine.callsOnly_respond` — a line makes no others.
* `Engine.dispatch_withLock` — the kit lock is carried along.
-/

namespace SecureKit

open Program

/-- A call that a line may make: one for the device, or one that sets the clock. -/
def Call.ForCommand : Call → Prop
  | .setClock _ => True
  | request => request.ForElement

/-- The bus commands that use the device: those with an accepted packet or a load with a byte in it,
and those that need none. -/
def PhysicalCommand.UsesDevice : PhysicalCommand → Prop
  | wake | receive (some (_ :: _)) | select none | select (some (_ :: _)) => True
  | send (some packet) => Element.packetFault? packet = none
  | _ => False

/-- The commands that use the device: those with an accepted packet, and those that need none. -/
def DeviceCommand.UsesDevice : DeviceCommand → Prop
  | wake | sleep | idle => True
  | talk (some packet) => Element.packetFault? packet = none
  | physical command => command.UsesDevice
  | _ => False

namespace Request

/-- The request looks for devices: it asks for one of them by an index. -/
def Discovers : Request → Prop
  | board (.discover (some (_ :: _))) => True
  | _ => False

/-- The request uses the device. -/
def UsesDevice : Request → Prop
  | device command => command.UsesDevice
  | request => request.Discovers

/-- The request asks to address the device at `address`, the first byte of its load. -/
def Selects (request : Request) (address : UInt8) : Prop :=
  ∃ rest, request = .device (.physical (.select (some (address :: rest))))

/-- The date to which a request sets the clock, if it does. -/
def clock? : Request → Option DateTime
  | board (.application (some (opcode :: record))) =>
    if opcode = setTimeOpcode then DateTime.ofPacked? record else none
  | _ => none

/-- The calls that a request may make: another device is addressed if this is asked for or in search
of one, the clock is set to the date that the request gives, and all other calls are for the device
and made by a request that uses it. -/
def Allows (request : Request) : Call → Prop
  | .select address => request.Selects address ∨ request.Discovers
  | .setClock date => request.clock? = some date
  | other => other.ForElement ∧ request.UsesDevice

variable {request : Request} {call : Call}

theorem UsesDevice.allows (h : request.UsesDevice) (hcall : call.InTransaction) :
    request.Allows call := by
  cases call <;> first | exact ⟨trivial, h⟩ | exact hcall.elim

theorem Discovers.usesDevice (h : request.Discovers) : request.UsesDevice := by
  cases request with
  | board command => exact h
  | device _ | unknown => exact h.elim

/-- A search may make any call for the device. -/
theorem Discovers.allows (h : request.Discovers) (hcall : call.ForElement) :
    request.Allows call := by
  cases call <;> first | exact ⟨hcall, h.usesDevice⟩ | exact .inr h | exact hcall.elim

/-- No request makes a call that is not for commands. -/
theorem Allows.forCommand (h : request.Allows call) : call.ForCommand := by
  cases call <;> first | trivial | exact h.1

end Request

/-- A command for the bus makes no calls but those of its request. -/
theorem PhysicalCommand.callsOnly_run (command : PhysicalCommand) :
    command.run.CallsOnly (Request.device (.physical command)).Allows := by
  match command with
  | missing | unknown | send none | receive none | receive (some []) | select (some []) => trivial
  | wake | select none => exact ⟨⟨trivial, trivial⟩, fun _ => trivial⟩
  | select (some (address :: rest)) => exact ⟨.inl ⟨rest, rfl⟩, fun _ => trivial⟩
  | send (some packet) =>
    cases hfault : Element.packetFault? packet with
    | some error =>
      rw [run, Element.send_of_packetFault? hfault]
      trivial
    | none =>
      have huses : (Request.device (.physical (send (some packet)))).UsesDevice := hfault
      exact ((Element.callsOnly_send packet).mono fun _ => huses.allows).bind fun _ => trivial
  | receive (some (size :: rest)) =>
    have huses : (Request.device (.physical (receive (some (size :: rest))))).UsesDevice := trivial
    exact ((Element.callsOnly_receive _ _).mono fun _ => huses.allows).bind fun _ => trivial

/-- A command for the device makes no calls but those of its request. -/
theorem DeviceCommand.callsOnly_run (command : DeviceCommand) :
    command.run.CallsOnly (Request.device command).Allows := by
  match command with
  | empty | unknown | talk none | autoWrap none | autoWrap (some _) => trivial
  | wake | sleep | idle => exact ⟨⟨trivial, trivial⟩, fun _ => trivial⟩
  | talk (some packet) =>
    cases hfault : Element.packetFault? packet with
    | some error =>
      rw [run, Element.talk_of_packetFault? hfault]
      trivial
    | none =>
      have huses : (Request.device (talk (some packet))).UsesDevice := hfault
      exact ((Element.callsOnly_talk packet _).mono fun _ => huses.allows).bind fun _ => trivial
  | physical command => exact command.callsOnly_run

/-- The clock is set by an application command with a record that is a date. -/
theorem callsOnly_runApplication (load : Bytes) :
    (runApplication load).CallsOnly (Request.board (.application (some load))).Allows := by
  cases load with
  | nil => trivial
  | cons opcode record =>
    rw [runApplication]
    split
    · next hopcode =>
      split
      · trivial
      · next date hdate =>
        have hclock : (Request.board (.application (some (opcode :: record)))).clock? = some date :=
          (if_pos hopcode).trans hdate
        exact ⟨hclock, fun _ => trivial⟩
    · trivial

/-- A command for the board makes no calls but those of its request. -/
theorem BoardCommand.callsOnly_run (devices : Element.DeviceTable) (command : BoardCommand) :
    (command.run devices).CallsOnly (Request.board command).Allows := by
  match command with
  | application none | version | unknown | firmware none | firmware (some [])
  | firmware (some (_ :: _)) | discover none | discover (some []) => trivial
  | application (some load) =>
    refine (callsOnly_runApplication load).bind fun outcome => ?_
    cases outcome <;> trivial
  | discover (some (index :: rest)) =>
    have hdiscovers : (Request.board (discover (some (index :: rest)))).Discovers := trivial
    exact (Element.callsOnly_discover.mono fun _ => hdiscovers.allows).bind fun _ => trivial

namespace Engine

/-- A line makes no calls but those of its request. -/
theorem callsOnly_dispatch (engine : Engine) (line : Bytes) :
    (engine.dispatch line).CallsOnly (Request.ofReceived line).Allows := by
  rw [dispatch]
  cases Request.ofReceived line with
  | device command => exact command.callsOnly_run.bind fun _ => trivial
  | board command => exact (command.callsOnly_run _).bind fun _ => trivial
  | unknown => trivial

/-- A line that was too long makes no call, and the others only those of commands. -/
theorem callsOnly_respond (engine : Engine) (line : ReceivedLine) :
    (engine.respond line).CallsOnly Call.ForCommand := by
  rw [respond]
  split
  · trivial
  · exact (engine.callsOnly_dispatch line.data).mono fun _ => Request.Allows.forCommand

/-- The kit lock does not matter for a line and is the same after it. -/
theorem dispatch_withLock (engine : Engine) (lock : Holdoff) (line : Bytes) :
    { engine with lock }.dispatch line =
      engine.dispatch line >>= fun result => return (result.1, { result.2 with lock }) := by
  rw [dispatch, dispatch]
  cases Request.ofReceived line with
  | device command =>
    dsimp only
    rw [bind_assoc]
    rfl
  | board command =>
    dsimp only
    rw [bind_assoc]
    rfl
  | unknown => rfl

end Engine

end SecureKit

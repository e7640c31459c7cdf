import SecureKit.Proofs.Element.Fault
import SecureKit.Proofs.Protocol.Engine
import SecureKit.Proofs.Protocol.Request

/-!
# The Tunnel to the Device

A device that works gets the packet of a talk line as it is, and the host gets back what the device
has answered.

* `Element.talk_cooperative` — the calls and the result of talking to a device that works.
* `Engine.process_cooperative` — the same for a line that asks to talk.
* `Engine.talk_transparent` — from the line to the response.
-/

namespace SecureKit

open Program

/-- What is asked of a device that works: it wakes, takes frames and idles, its execution time is
known to be `millis`, and what is received from it is `answer`. -/
def Event.Cooperative (millis : UInt32) (answer : Bytes) : Event → Prop
  | ⟨.wake, reply⟩ | ⟨.idle, reply⟩ | ⟨.send _, reply⟩ => reply = .ok ()
  | ⟨.executionTime _, reply⟩ => reply = .ok millis
  | ⟨.receive _, exchange⟩ => ∃ length, exchange = ⟨answer, .ok length⟩
  | _ => True

/-- Peripherals with a device that works: it takes `millis` for every command and what is received
from it is `answer`. The time is not known and the network is down. -/
def workingDevice (millis : UInt32) (answer : Bytes) : Environment Unit where
  answer
    | .wake, _ | .idle, _ | .sleep, _ | .send _, _ => (.ok (), ())
    | .receive _, _ => (⟨answer, .ok answer.length⟩, ())
    | .executionTime _, _ => (.ok millis, ())
    | .address, _ => (defaultAddress, ())
    | .busType, _ => (.unknown, ())
    | .select _, _ | .delay _, _ | .setClock _, _ | .requestTime, _ => ((), ())
    | .report _, _ | .hasError, _ => (true, ())
    | .utc, _ => (0, ())
    | .temperature, _ => (.ok 0, ())
    | .setFanSpeed _, _ => (.ok (), ())
    | .fanSpeed, _ => (.ok 0, ())
    | .openSocket _ _, _ | .connect _, _ | .subscribe _, _ | .publish _ _ _, _ =>
      (.error .network, ())
    | .pollMessage _, _ | .sign _ _, _ => (.error .network, ())

/-- A device that works answers every call as one. -/
theorem cooperative_of_mem_trace {α : Type} {millis : UInt32} {answer : Bytes}
    (program : Program α) (state : Unit) :
    ∀ event ∈ program.trace (workingDevice millis answer) state,
      event.Cooperative millis answer := by
  induction program generalizing state with
  | done value => exact fun _ h => absurd h List.not_mem_nil
  | call request next ih =>
    refine List.forall_mem_cons.2 ⟨?_, ih _ _⟩
    cases request <;> first | rfl | trivial | exact ⟨answer.length, rfl⟩

namespace Element

/-- Talking to a device that works sends the frame, waits and receives, each once. -/
theorem talk_cooperative {packet answer : Bytes} {order : Order} {room : Nat} (millis : UInt32)
    (horder : Order.ofPacket packet = .ok order) (hroom : order.responseLength ≤ room)
    (hanswer : answer.length ≤ order.responseLength) :
    (talk packet room).EnsuresUnder (Event.Cooperative millis answer) fun events exchange =>
      ∃ received,
        events = [⟨.executionTime order.command.opcode, .ok millis⟩, ⟨.wake, .ok ()⟩,
          ⟨.send order.frame, .ok ()⟩, ⟨.delay millis, ()⟩,
          ⟨.receive order.responseLength, ⟨answer, .ok received⟩⟩, ⟨.idle, .ok ()⟩] ∧
        exchange = ⟨answer, .ok received⟩ := by
  rw [talk, horder]
  simp only [perform_eq, call_bind, done_bind, ensuresUnder_call]
  -- one call after the other, each with the only answer there is
  rintro _ rfl
  dsimp only
  rw [if_neg (by omega), awake, sendAnd, receiveInto]
  simp only [perform_eq, call_bind, done_bind, ensuresUnder_call]
  rintro _ rfl
  simp only [ensuresUnder_call]
  rintro _ rfl
  simp only [call_bind, ensuresUnder_call]
  rintro _ _ _ ⟨received, rfl⟩
  simp only [pure_eq, done_bind, ensuresUnder_call]
  rintro _ rfl
  refine ⟨received, rfl, ?_⟩
  rw [List.take_of_length_le hanswer]
  rfl

end Element

namespace Engine

/-- The response to a talk line, from the exchange with the device. -/
theorem process_talk (engine : Engine) {line packet : Bytes}
    (h : Request.ofReceived line = .device (.talk (some packet))) :
    engine.process line = (do
      let exchange ← Element.talk packet deviceRoom
      let response := { engine with transmit := .blank }.respondDevice (.ofExchange exchange)
      return (shown response, response.2)) := by
  rw [engine.process_device h]
  simp [DeviceCommand.run]

/-- The payload for an answer that counts itself is the answer. -/
theorem devicePayload_counted (engine : Engine) {answer : Bytes} (received : Nat)
    (hself : (answer.headD 0).toNat = answer.length) (hroom : answer.length ≤ deviceRoom) :
    { engine with transmit := .blank }.devicePayload (.ofExchange ⟨answer, .ok received⟩) =
      answer := by
  rw [devicePayload_blank _ rfl hroom]
  show answer.resize (answer.headD 0).toNat = answer
  rw [hself]
  simp [Bytes.resize, Bytes.zeros]

/-- The response with an answer that counts itself shows all of it. -/
theorem shown_respondDevice_counted (engine : Engine) {answer : Bytes} (received : Nat)
    (hself : (answer.headD 0).toNat = answer.length) (hroom : answer.length ≤ deviceRoom) :
    shown ({ engine with transmit := .blank }.respondDevice
      (.ofExchange ⟨answer, .ok received⟩)) = Frame.render KitStatus.success.code answer := by
  rw [shown_respondDevice, devicePayload_counted engine received hself hroom]
  rfl

/-- Carrying out a talk line with a device that works exchanges one frame for the answer, and frames
the answer for the host. -/
theorem process_cooperative (engine : Engine) {line packet answer : Bytes} {order : Element.Order}
    (millis : UInt32) (hrequest : Request.ofReceived line = .device (.talk (some packet)))
    (horder : Element.Order.ofPacket packet = .ok order)
    (hroom : order.responseLength ≤ deviceRoom)
    (hself : (answer.headD 0).toNat = answer.length)
    (hanswer : answer.length ≤ order.responseLength) :
    (engine.process line).EnsuresUnder (Event.Cooperative millis answer) fun events result =>
      (∃ received, events = [⟨.executionTime order.command.opcode, .ok millis⟩, ⟨.wake, .ok ()⟩,
        ⟨.send order.frame, .ok ()⟩, ⟨.delay millis, ()⟩,
        ⟨.receive order.responseLength, ⟨answer, .ok received⟩⟩, ⟨.idle, .ok ()⟩]) ∧
      result.1 = Frame.render KitStatus.success.code answer := by
  rw [engine.process_talk hrequest, ensuresUnder_bind]
  -- all calls are those of the exchange; the engine only frames what came back
  refine (Element.talk_cooperative millis horder hroom hanswer).mono ?_
  rintro _ _ ⟨received, rfl, rfl⟩
  refine ⟨⟨received, rfl⟩, ?_⟩
  dsimp only
  exact engine.shown_respondDevice_counted received hself (Nat.le_trans hanswer hroom)

/-- A packet sent through the talk command reaches a device that works as it is, and the host gets
the answer of the device: for a line that is the talk line of a packet with an acceptable count and
a known opcode, in any case and with or without a terminator, and an answer that counts itself and
is not longer than the opcode allows. -/
theorem talk_transparent {σ : Type} (environment : Environment σ) (state : σ) (engine : Engine)
    {library : Option Bytes} {selector count opcode param1 : UInt8} {rest line answer : Bytes}
    {command : Command} {millis : UInt32}
    (hlibrary : ∀ name ∈ library, Bytes.ascii ':' ∉ name)
    (hselector : selector = Bytes.ascii 's' ∨ selector = Bytes.ascii 'e')
    (hline : SameLetters line (talkLine library selector (count :: opcode :: param1 :: rest)) ∨
      SameLetters line
        (talkLine library selector (count :: opcode :: param1 :: rest) ++ [Frame.terminator]))
    (hmin : 3 ≤ count.toNat) (hle : count.toNat ≤ rest.length + 3)
    (hmax : count.toNat ≤ Element.commandMax) (hcommand : Command.ofOpcode? opcode = some command)
    (hself : (answer.headD 0).toNat = answer.length)
    (hanswer : answer.length ≤ command.responseLength param1)
    (hdevice : ∀ event ∈ (engine.process line).trace environment state,
      event.Cooperative millis answer) :
    (∃ received, (engine.process line).trace environment state =
      [⟨.executionTime opcode, .ok millis⟩, ⟨.wake, .ok ()⟩,
        ⟨.send (count :: (count :: opcode :: param1 :: rest).take count.toNat), .ok ()⟩,
        ⟨.delay millis, ()⟩,
        ⟨.receive (command.responseLength param1), ⟨answer, .ok received⟩⟩,
        ⟨.idle, .ok ()⟩]) ∧
    ((engine.process line).run environment state).1.1 =
      Bytes.ofText "00(" ++ Hex.encode answer ++ Bytes.ofText ")\n" ∧
    Load.ofCommand? ((engine.process line).run environment state).1.1 = some answer := by
  have hrequest := Request.ofReceived_of_sameLetters_talkLine hlibrary hselector hline
  have horder := Element.Order.ofPacket_eq_ok param1 hmin hle hmax hcommand
  -- the longest response of any command is shorter than the room in the transmit buffer
  have hroom : command.responseLength param1 ≤ deviceRoom :=
    Nat.le_trans (command.responseLength_le param1) (by decide)
  obtain ⟨htrace, hresponse⟩ :=
    (engine.process_cooperative millis hrequest horder hroom hself hanswer).run hdevice
  rw [Command.opcode_of_ofOpcode? hcommand] at htrace
  refine ⟨htrace, ?_, ?_⟩
  · rw [hresponse, Frame.render_success]
  · rw [hresponse, Load.ofCommand?_render]

/-- A device is asked for its revision, in a line of mixed case with the name of a library. -/
theorem talk_transparent_info :
    let answer : Bytes := [0x07, 0x00, 0x00, 0x60, 0x02, 0x80, 0x1D]
    let program := (Engine.new 1).process (Bytes.ofText "lEcc:s:T(0730000000035d)\n")
    let response := (program.run (workingDevice 1 answer) ()).1.1
    (∃ received, program.trace (workingDevice 1 answer) () =
      [⟨.executionTime 0x30, .ok 1⟩, ⟨.wake, .ok ()⟩,
        ⟨.send [0x07, 0x07, 0x30, 0x00, 0x00, 0x00, 0x03, 0x5D], .ok ()⟩, ⟨.delay 1, ()⟩,
        ⟨.receive 7, ⟨answer, .ok received⟩⟩, ⟨.idle, .ok ()⟩]) ∧
    response = Bytes.ofText "00(0700006002801D)\n" ∧
    Load.ofCommand? response = some answer := by
  intro answer program response
  have hline : SameLetters (Bytes.ofText "lEcc:s:T(0730000000035d)\n")
      (talkLine (some (Bytes.ofText "ecc")) (Bytes.ascii 's')
        [0x07, 0x30, 0x00, 0x00, 0x00, 0x03, 0x5D] ++ [Frame.terminator]) := by decide
  have hcommand : Command.ofOpcode? 0x30 = some .info := rfl
  obtain ⟨htrace, hresponse, hload⟩ :=
    talk_transparent (workingDevice 1 answer) () (Engine.new 1) (by decide) (.inl rfl) (.inr hline)
      (by decide) (by decide) (by decide) hcommand rfl (by decide)
      (cooperative_of_mem_trace program ())
  exact ⟨htrace, hresponse.trans (by decide), hload⟩

end Engine

end SecureKit

import SecureKit.Proofs.Peripheral.Script
import SecureKit.Proofs.Protocol.Forwarding
import SecureKit.Proofs.Protocol.Grammar

/-!
# Talking in Two Lines

A packet can be sent in one line and its response received in the next one. The device is idled and
woken in between, which makes no difference to a device that goes on where it was idled: the host
gets what it would get from talking.

* `runs_talk`, `runs_send`, `runs_receive` — the operations step by step.
* `Engine.talk_resumed` — the two lines against the one.
-/

namespace SecureKit

open Program

namespace Element

variable {σ ω : Type} {environment : Environment σ} {ready : σ → Prop} {view : σ → ω}

/-- No packet asks for more than the largest response. -/
theorem responseLengthOf_le (packet : Bytes) : responseLengthOf packet ≤ responseMax := by
  rw [responseLengthOf]
  cases Command.ofPacket? packet with
  | none => exact Nat.zero_le _
  | some named => exact named.1.responseLength_le named.2

/-- The calls up to the end of the execution of a packet. -/
def sending (packet : Bytes) (millis : UInt32) : List Event :=
  [⟨.executionTime (packet.getD 1 0), .ok millis⟩, ⟨.wake, .ok ()⟩,
    ⟨.send (frameOf packet), .ok ()⟩, ⟨.delay millis, ()⟩]

/-- The peripherals at the end of the execution of a packet. -/
def sent (environment : Environment σ) (packet : Bytes) (millis : UInt32) (state : σ) : σ :=
  let timed := (environment.answer (.executionTime (packet.getD 1 0)) state).2
  let woken := (environment.answer .wake timed).2
  let taken := (environment.answer (.send (frameOf packet)) woken).2
  (environment.answer (.delay millis) taken).2

/-- What is received into a buffer. -/
def received (environment : Environment σ) (room : Nat) (state : σ) : Exchange Nat :=
  let exchange := (environment.answer (.receive room) state).1
  { exchange with stored := exchange.stored.take room }

section Runs

variable (h : environment.Resumes ready view) {state after : σ} {α : Type} {events : List Event}
  {exchange : Exchange α}

/-- Receiving is one call, and gives what it was answered with. -/
theorem runs_receiveInto (environment : Environment σ) (room : Nat) (state : σ) :
    (receiveInto room).Runs environment state
      [⟨.receive room, (environment.answer (.receive room) state).1⟩]
      (received environment room state) (environment.answer (.receive room) state).2 :=
  .call rfl (.done _)

include h

/-- An operation of a device that is ready runs between waking and idling. -/
theorem runs_awake {operation : Program (Exchange α)} (hready : ready state)
    (hrun : operation.Runs environment (environment.answer .wake state).2 events exchange after)
    (hafter : ready after) :
    (awake operation).Runs environment state (⟨.wake, .ok ()⟩ :: (events ++ [⟨.idle, .ok ()⟩]))
      exchange (environment.answer .idle after).2 := by
  refine .call (h.wakes state hready) ?_
  show (operation >>= fun exchange => perform .idle >>= fun idle =>
    return exchange.idled idle).Runs _ _ _ _ _
  refine .bind hrun (.call (h.idles after hafter) ?_)
  show (done (exchange.idled (.ok ()))).Runs _ _ _ _ _
  rw [exchange.idled_ok]
  exact .done exchange

/-- A device that is ready takes the frame before the operation goes on. -/
theorem runs_sendAnd {rest : Program (Exchange α)} (hready : ready state) {frame : Bytes}
    {millis : UInt32}
    (hrun : rest.Runs environment
      (environment.answer (.delay millis) (environment.answer (.send frame) state).2).2
      events exchange after) :
    (sendAnd frame millis rest).Runs environment state
      (⟨.send frame, .ok ()⟩ :: ⟨.delay millis, ()⟩ :: events) exchange after :=
  .call (h.sends frame state hready) (.call rfl hrun)

/-- A device that is ready is so after a packet was sent. -/
theorem ready_sent (hready : ready state) (packet : Bytes) (millis : UInt32) :
    ready (sent environment packet millis state) := by
  refine h.stays _ _ (h.stays _ _ (h.stays _ _ (h.stays _ _ hready ?_) ?_) ?_) ?_ <;> trivial

/-- A packet that is accepted is sent, and its response received if there is room for it. -/
theorem runs_talk {packet : Bytes} {millis : UInt32} {room : Nat} (hready : ready state)
    (hpacket : packetFault? packet = none)
    (htime : executionTimes environment state (packet.getD 1 0) = .ok millis)
    (hroom : responseLengthOf packet ≤ room) :
    (talk packet room).Runs environment state
      (sending packet millis ++ [⟨.receive (responseLengthOf packet),
        (environment.answer (.receive (responseLengthOf packet))
          (sent environment packet millis state)).1⟩, ⟨.idle, .ok ()⟩])
      (received environment (responseLengthOf packet) (sent environment packet millis state))
      (environment.answer .idle (environment.answer (.receive (responseLengthOf packet))
        (sent environment packet millis state)).2).2 := by
  obtain ⟨order, horder, hframe, hopcode, hlength⟩ := ofPacket_of_packetFault?_eq_none hpacket
  have htimed : ready (environment.answer (.executionTime (packet.getD 1 0)) state).2 :=
    h.stays _ _ hready trivial
  have hwoken := h.stays .wake _ htimed trivial
  rw [talk, horder]
  dsimp only
  rw [hframe, hopcode, hlength]
  refine .call htime ?_
  show (if _ then _ else _ : Program (Exchange Nat)).Runs _ _ _ _ _
  rw [if_neg (Nat.not_lt.2 hroom)]
  have hsent := ready_sent h hready packet millis
  exact runs_awake h htimed (runs_sendAnd h hwoken (runs_receiveInto environment _ _))
    (h.stays _ _ hsent trivial)

/-- Sending a packet that is not refused succeeds. -/
theorem runs_send {packet : Bytes} {millis : UInt32} (hready : ready state)
    (hpacket : packetFault? packet = none)
    (htime : executionTimes environment state (packet.getD 1 0) = .ok millis) :
    (send packet).Runs environment state (sending packet millis ++ [⟨.idle, .ok ()⟩]) ⟨[], .ok ()⟩
      (environment.answer .idle (sent environment packet millis state)).2 := by
  obtain ⟨order, horder, hframe, hopcode, -⟩ := ofPacket_of_packetFault?_eq_none hpacket
  have htimed : ready (environment.answer (.executionTime (packet.getD 1 0)) state).2 :=
    h.stays _ _ hready trivial
  have hwoken := h.stays .wake _ htimed trivial
  rw [send, horder]
  dsimp only
  rw [hframe, hopcode]
  refine .call htime ?_
  exact runs_awake h htimed (runs_sendAnd h hwoken (.done _)) (ready_sent h hready packet millis)

/-- Idling and waking in between makes no difference to what is received. -/
theorem receive_woken (room : Nat) (state : σ) :
    let woken := (environment.answer .wake (environment.answer .idle state).2).2
    (environment.answer (.receive room) woken).1 = (environment.answer (.receive room) state).1 ∧
      view (environment.answer (.receive room) woken).2 =
        view (environment.answer (.receive room) state).2 := by
  intro woken
  have hview : view woken = view state := (h.view_wake _).trans (h.view_idle state)
  exact h.receives room woken state hview

/-- Receiving gives the answer of a device that is ready. -/
theorem runs_receive {size room : Nat} (hready : ready state) (hroom : size ≤ room) :
    let woken := (environment.answer .wake state).2
    (receive size room).Runs environment state
      [⟨.wake, .ok ()⟩, ⟨.receive size, (environment.answer (.receive size) woken).1⟩,
        ⟨.idle, .ok ()⟩]
      (received environment size woken)
      (environment.answer .idle (environment.answer (.receive size) woken).2).2 := by
  intro woken
  have hwoken : ready woken := h.stays .wake _ hready trivial
  rw [receive, Nat.min_eq_left hroom]
  exact runs_awake h hready (runs_receiveInto environment size woken) (h.stays _ _ hwoken trivial)

end Runs

end Element

/-- The line of a command with a load. -/
def loadLine (command : String) (load : Bytes) : Bytes :=
  Bytes.ofText command ++ Frame.opening :: (Hex.encode load ++ [Frame.closing])

namespace Request

/-- A line for the device denotes what the rest of it denotes. -/
theorem denotes_device {rest : Bytes} {command : DeviceCommand}
    (h : DeviceCommand.Denotes (Bytes.ascii 's' :: rest) command) :
    Denotes (Bytes.ascii 's' :: rest) (.device command) :=
  .direct (noToken_cons (by decide) rest) (.device (.inl rfl) h)

/-- The line for talking asks to talk. -/
theorem ofReceived_talk (packet : Bytes) :
    ofReceived (loadLine "s:t" packet) = .device (.talk (some packet)) := by
  refine ofReceived_enclosed (by decide) fun text hload => denotes_device ?_
  exact .talk ⟨[Bytes.ascii 's'], by decide, rfl⟩ hload

theorem ofReceived_send (packet : Bytes) :
    ofReceived (loadLine "s:p:c" packet) = .device (.physical (.send (some packet))) := by
  refine ofReceived_enclosed (by decide) fun text hload => denotes_device ?_
  exact .physical ⟨[Bytes.ascii 's'], by decide, rfl⟩ (.send ⟨[], by decide, rfl⟩ hload)

theorem ofReceived_receive (size : Bytes) :
    ofReceived (loadLine "s:p:r" size) = .device (.physical (.receive (some size))) := by
  refine ofReceived_enclosed (by decide) fun text hload => denotes_device ?_
  exact .physical ⟨[Bytes.ascii 's'], by decide, rfl⟩ (.receive ⟨[], by decide, rfl⟩ hload)

end Request

namespace Engine

variable {σ : Type} {environment : Environment σ} {state after : σ} {events : List Event}

/-- The response to a device line, from the answer to its command, and the engine after it. -/
def answered (engine : Engine) (answer : DeviceAnswer) : Bytes × Engine :=
  let response := { engine with transmit := .blank }.respondDevice answer
  (shown response, response.2)

/-- An earlier line makes no difference to the answer. -/
theorem answered_answered (engine : Engine) (earlier answer : DeviceAnswer) :
    (engine.answered earlier).2.answered answer = engine.answered answer := rfl

/-- Success without a payload is answered with the status alone. -/
theorem answered_success (engine : Engine) :
    (engine.answered (.ofResult (.ok ()))).1 = Bytes.ofText "00()\n" := by
  rw [answered]
  dsimp only
  rw [shown_respondDevice]
  have hpayload :
      { engine with transmit := .blank }.devicePayload (.ofResult (.ok ())) = [] := rfl
  rw [hpayload]
  decide

/-- A device line makes the calls of its command, and is answered with what the command gives. -/
theorem runs_process (engine : Engine) {line : Bytes} {command : DeviceCommand}
    {answer : DeviceAnswer} (hline : Request.ofReceived line = .device command)
    (hrun : command.run.Runs environment state events answer after) :
    (engine.process line).Runs environment state events (engine.answered answer) after := by
  rw [engine.process_device hline]
  exact hrun.bind_return engine.answered

/-- Send a packet in one line, and receive its response in the next one. -/
def inTwoLines (engine : Engine) (packet : Bytes) : Program (Bytes × Bytes × Engine) := do
  let first ← engine.process (loadLine "s:p:c" packet)
  let size := UInt8.ofNat (Element.responseLengthOf packet)
  let second ← first.2.process (loadLine "s:p:r" [size])
  return (first.1, second)

/-- The two lines are carried out one after the other. -/
theorem runs_inTwoLines {engine : Engine} {packet : Bytes} {first second : Bytes × Engine}
    {middle : σ} {events' : List Event}
    (hsend : (engine.process (loadLine "s:p:c" packet)).Runs environment state events first middle)
    (hreceive : (first.2.process
      (loadLine "s:p:r" [UInt8.ofNat (Element.responseLengthOf packet)])).Runs environment middle
        events' second after) :
    (engine.inTwoLines packet).Runs environment state (events ++ events') (first.1, second)
      after := by
  have hreturn := hreceive.bind_return fun second => (first.1, second)
  exact hsend.bind hreturn

/-- A device that goes on where it was idled answers in two lines what it answers in one. -/
theorem resumed_of_resumes {ω : Type} {ready : σ → Prop} {view : σ → ω}
    (h : environment.Resumes ready view) (engine : Engine) {packet : Bytes} {millis : UInt32}
    (hready : ready state) (hpacket : Element.packetFault? packet = none)
    (htime : Element.executionTimes environment state (packet.getD 1 0) = .ok millis) :
    ∃ exchange response after after',
      (engine.process (loadLine "s:t" packet)).Runs environment state
        (Element.sending packet millis ++
          [⟨.receive (Element.responseLengthOf packet), exchange⟩, ⟨.idle, .ok ()⟩])
        response after ∧
      (engine.inTwoLines packet).Runs environment state
        (Element.sending packet millis ++ [⟨.idle, .ok ()⟩, ⟨.wake, .ok ()⟩,
          ⟨.receive (Element.responseLengthOf packet), exchange⟩, ⟨.idle, .ok ()⟩])
        (Bytes.ofText "00()\n", response) after' ∧
      view after' = view after := by
  have hroom : Element.responseLengthOf packet ≤ deviceRoom :=
    Nat.le_trans (Element.responseLengthOf_le packet) (by decide)
  have hsize : (UInt8.ofNat (Element.responseLengthOf packet)).toNat =
      Element.responseLengthOf packet := by
    have hle := Element.responseLengthOf_le packet
    have hmax : Element.responseMax = 100 := rfl
    exact UInt8.toNat_ofNat_of_lt' (by rw [UInt8.size]; omega)
  have hsent := Element.ready_sent h hready packet millis
  have htalk := engine.runs_process (Request.ofReceived_talk packet)
    ((Element.runs_talk h hready hpacket htime hroom).bind_return DeviceAnswer.ofExchange)
  have hsend := engine.runs_process (Request.ofReceived_send packet)
    ((Element.runs_send h hready hpacket htime).bind_return fun exchange =>
      DeviceAnswer.ofResult exchange.outcome)
  generalize Element.sent environment packet millis state = sent at hsent htalk hsend
  -- the next line starts from the engine and the peripherals as the first has left them
  have hidled : ready (environment.answer .idle sent).2 := h.stays .idle sent hsent trivial
  have hreceive := (engine.answered (.ofResult (.ok ()))).2.runs_process
    (Request.ofReceived_receive [UInt8.ofNat (Element.responseLengthOf packet)])
    ((Element.runs_receive h hidled (hsize.trans_le hroom)).bind_return DeviceAnswer.ofExchange)
  rw [hsize, answered_answered] at hreceive
  -- the device has been idled and woken since the packet was sent, and nothing else
  obtain ⟨hanswer, hafter⟩ := Element.receive_woken h (Element.responseLengthOf packet) sent
  have hreceived : Element.received environment (Element.responseLengthOf packet)
      (environment.answer .wake (environment.answer .idle sent).2).2 =
        Element.received environment (Element.responseLengthOf packet) sent := by
    rw [Element.received, Element.received, hanswer]
  rw [hanswer, hreceived] at hreceive
  have hsuccess := engine.answered_success
  dsimp only at hsend
  generalize engine.answered (.ofResult (.ok ())) = first at hsend hreceive hsuccess
  have hlines := runs_inTwoLines hsend hreceive
  rw [hsuccess, List.append_assoc] at hlines
  refine ⟨_, _, _, _, htalk, hlines, ?_⟩
  rw [h.view_idle, h.view_idle]
  exact hafter

/-- Sending a packet in one line and receiving its response in the next one gives the host what
talking does, also if receiving fails: for every packet that is accepted, and every device that is
there, whose execution time is known, and which no fault keeps from waking, taking frames and
idling. The calls are those of talking, with the device idled and woken between the delay and the
response, and the wait is as long. The bench is left in the same state, but for its log and what is
used up of the script for waking and idling. -/
theorem talk_resumed {κ : Type} [Clock κ] (engine : Engine) (bench : Bench κ) {packet : Bytes}
    {millis : UInt32} (hpacket : Element.packetFault? packet = none)
    (hwilling : bench.bus.Willing)
    (htime : bench.bus.executionTime (packet.getD 1 0) = .ok millis) :
    ∃ exchange response after after',
      (engine.process (loadLine "s:t" packet)).Runs Bench.environment bench
        (Element.sending packet millis ++
          [⟨.receive (Element.responseLengthOf packet), exchange⟩, ⟨.idle, .ok ()⟩])
        response after ∧
      (engine.inTwoLines packet).Runs Bench.environment bench
        (Element.sending packet millis ++ [⟨.idle, .ok ()⟩, ⟨.wake, .ok ()⟩,
          ⟨.receive (Element.responseLengthOf packet), exchange⟩, ⟨.idle, .ok ()⟩])
        (Bytes.ofText "00()\n", response) after' ∧
      after'.waited = after.waited ∧ after'.rested = after.rested := by
  obtain ⟨exchange, response, after, after', htalk, hlines, hrested⟩ :=
    engine.resumed_of_resumes Bench.resumes hwilling hpacket htime
  have hwaited : after'.rested.waited = after.rested.waited := by rw [hrested]
  exact ⟨exchange, response, after, after', htalk, hlines, hwaited, hrested⟩

/-- A device is asked for a random number, and answers with a status. -/
theorem talk_resumed_random :
    let packet := Element.withChecksum [0x07, Command.random.opcode, 0x00, 0x00, 0x00]
    let bus : SimulatedBus :=
      ⟨0xC0, some [0xC0], none, [[0x04, 0x11, 0x33, 0x43]], [(.sleep, some .timeout)], none, 0⟩
    let bench : Bench StillClock :=
      ⟨#[], 0, bus, ⟨[], true⟩, ⟨1000⟩, ⟨[], 24500, [], 0, []⟩, ⟨[], [], [], false, []⟩⟩
    ∃ exchange engine after,
      ((Engine.new 10).inTwoLines packet).Runs Bench.environment bench
        (Element.sending packet 23 ++ [⟨.idle, .ok ()⟩, ⟨.wake, .ok ()⟩, ⟨.receive 35, exchange⟩,
          ⟨.idle, .ok ()⟩])
        (Bytes.ofText "00()\n", Bytes.ofText "00(04113343)\n", engine) after ∧
      after.waited = 23 := by
  intro packet bus bench
  have hpacket : Element.packetFault? packet = none := by decide +kernel
  have hwilling : bench.bus.Willing := ⟨rfl, by decide⟩
  obtain ⟨exchange, response, after, after', htalk, hlines, hwaited, -⟩ :=
    talk_resumed (Engine.new 10) bench hpacket hwilling rfl
  -- what the two lines answer is read off the talk
  have htalked :
      let talked := ((Engine.new 10).process (loadLine "s:t" packet)).run Bench.environment bench
      talked.1.1 = Bytes.ofText "00(04113343)\n" ∧ talked.2.waited = 23 := by
    decide +kernel
  rw [htalk.run_eq] at htalked
  obtain ⟨hresponse, htime⟩ := htalked
  refine ⟨exchange, response.2, after', ?_, hwaited.trans htime⟩
  rw [← hresponse]
  exact hlines

end Engine

end SecureKit

import SecureKit.Proofs.Peripheral.Alike
import SecureKit.Proofs.Protocol.Status

/-!
# Isolation of Dispatch Cycles

Nothing of an earlier line shows in a later one. The transmit buffer is cleared before a command is
carried out, and the device table is replaced before it is reported from, so engines that differ in
no more than these two cannot be told apart.

* `Engine.alike_process`, `Engine.alike_poll` — such engines look alike for every line and queue.
* `DeviceCommand.received` — an answer with device bytes holds what was delivered and no more.
* `Engine.cycles_isolated` — both, for every run.
-/

namespace SecureKit

open Program

/-- The commands that ask for bytes of the device. -/
def DeviceCommand.Receives : DeviceCommand → Prop
  | talk (some _) | physical (.receive (some (_ :: _))) => True
  | _ => False

/-- The answer with the bytes of an operation that receives. -/
theorem DeviceAnswer.received_ofExchange {operation : Program (Exchange Nat)}
    (h : Element.Receives operation deviceRoom) :
    (do return ofExchange (← operation) : Program DeviceAnswer).Ensures fun events answer =>
      answer.failure? = none →
        answer.outcome = .ok .counted ∧ events.filterMap Event.delivered? = [answer.stored] ∧
          answer.stored.length ≤ deviceRoom := by
  rw [ensures_bind]
  refine Ensures.mono h ?_
  rintro events ⟨stored, outcome⟩ hreceived hsuccess
  rw [failure?_ofExchange, Option.map_eq_none_iff] at hsuccess
  cases outcome with
  | error error => cases hsuccess
  | ok length =>
    rw [List.append_nil]
    exact ⟨rfl, hreceived rfl⟩

/-- A command that asks for bytes of the device and succeeds is answered with those that the device
has delivered. -/
theorem DeviceCommand.received {command : DeviceCommand} (h : command.Receives) :
    command.run.Ensures fun events answer =>
      answer.failure? = none →
        answer.outcome = .ok .counted ∧ events.filterMap Event.delivered? = [answer.stored] ∧
          answer.stored.length ≤ deviceRoom := by
  match command, h with
  | talk (some packet), _ => exact DeviceAnswer.received_ofExchange (Element.receives_talk packet _)
  | physical (.receive (some (size :: _))), _ =>
    exact DeviceAnswer.received_ofExchange (Element.receives_receive size.toNat _)

/-- The device table of before shows neither in the calls of a board command nor in its answer. -/
theorem BoardCommand.alike_run (devices devices' : Element.DeviceTable) (command : BoardCommand) :
    Alike (fun result result' => result.1 = result'.1) (command.run devices)
      (command.run devices') := by
  match command with
  | application none | version | unknown | firmware none | firmware (some [])
  | firmware (some (_ :: _)) | discover none | discover (some []) => exact .done rfl
  | application (some load) =>
    refine Alike.bind_same (runApplication load) fun outcome => ?_
    cases outcome <;> exact .done rfl
  -- the report is made from the table that was found just now
  | discover (some (_ :: _)) => exact Alike.bind_same Element.discover fun _ => .done rfl

namespace Engine

/-- Responses that look the same, from engines with the same kit lock. -/
def SameView (response response' : Nat × Engine) : Prop :=
  shown response = shown response' ∧ response.2.lock = response'.2.lock

section Alike

variable (engine : Engine) (devices : Element.DeviceTable) (transmit : TransmitBuffer)

/-- A line is carried out alike with any device table and any content of the buffer. -/
theorem alike_dispatch (line : Bytes) :
    Alike SameView (engine.dispatch line) ({ engine with devices, transmit }.dispatch line) := by
  rw [dispatch, dispatch]
  -- both buffers are cleared first, so the same answer is framed into the same bytes
  cases Request.ofReceived line with
  | device command => exact Alike.bind_same command.run fun answer => .done ⟨rfl, rfl⟩
  | board command =>
    refine (command.alike_run engine.devices devices).bind ?_
    rintro ⟨answer, found⟩ ⟨_, found'⟩ rfl
    exact .done ⟨rfl, rfl⟩
  | unknown => exact .done ⟨rfl, rfl⟩

/-- Engines that differ in the device table and the transmit buffer carry out a line alike. -/
theorem alike_process (line : Bytes) :
    Alike (fun result result' => result.1 = result'.1 ∧ result.2.lock = result'.2.lock)
      (engine.process line) ({ engine with devices, transmit }.process line) :=
  (engine.alike_dispatch devices transmit line).bind fun _ _ hview => .done hview

/-- The buffer is not cleared for a line that was too long, but its response hides the rest. -/
theorem alike_respond (line : ReceivedLine) :
    Alike SameView (engine.respond line) ({ engine with devices, transmit }.respond line) := by
  rw [respond, respond]
  split
  · refine .done ⟨?_, rfl⟩
    rw [shown_respondStatus, shown_respondStatus]
  · exact engine.alike_dispatch devices transmit line.data

/-- Engines that differ in the device table and the transmit buffer answer a queue alike. -/
theorem alike_poll (queue : LineQueue) :
    Alike (fun result result' => result.1 = result'.1 ∧ result.2.1.lock = result'.2.1.lock ∧
        result.2.2 = result'.2.2)
      (engine.poll queue) ({ engine with devices, transmit }.poll queue) := by
  rw [poll, poll]
  cases queue.dequeue? with
  | none => exact .done ⟨rfl, rfl, rfl⟩
  | some next =>
    obtain ⟨line, queue⟩ := next
    have hrespond :=
      { engine with lock := engine.lock.arm kitHoldoff }.alike_respond devices transmit line
    refine hrespond.bind ?_
    rintro ⟨size, after⟩ ⟨size', after'⟩ ⟨hshown, hlock⟩
    -- the reports are cut from what is shown
    have hreport : after.transmit.content size = after'.transmit.content size' := hshown
    dsimp only
    rw [hreport]
    exact Alike.bind_same _ fun _ => .done ⟨rfl, hlock, rfl⟩

end Alike

/-- The response to a command that asks for bytes of the device and succeeds: as many bytes as the
first one delivered says, which are those delivered and zeros after them. -/
theorem process_received {σ : Type} (environment : Environment σ) (state : σ) (engine : Engine)
    {line : Bytes} {command : DeviceCommand} (hline : Request.ofReceived line = .device command)
    (hreceives : command.Receives)
    (hsuccess : command.failure? ((engine.process line).trace environment state) = none) :
    ∃ delivered : Bytes,
      ((engine.process line).trace environment state).filterMap Event.delivered? = [delivered] ∧
      ((engine.process line).run environment state).1.1 =
        Frame.render KitStatus.success.code (delivered.resize (delivered.headD 0).toNat) := by
  rw [engine.process_device hline] at hsuccess ⊢
  rw [trace_bind, pure_eq, trace_done, List.append_nil] at hsuccess ⊢
  rw [run_bind, pure_eq, run_done]
  have hreceived := (DeviceCommand.received hreceives).run environment state
  obtain ⟨hfailure, -⟩ := command.answers_run.run environment state
  generalize (command.run.run environment state).1 = answer at hreceived hfailure
  -- no check and no call has failed, so the answer is a success
  have hnone : answer.failure? = none := hfailure.trans hsuccess
  obtain ⟨hcounted, hdelivered, hroom⟩ := hreceived hnone
  refine ⟨answer.stored, hdelivered, ?_⟩
  dsimp only
  rw [shown_respondDevice, devicePayload_blank _ hcounted hroom, answer.status_eq, hnone]
  rfl

/-- No line leaks into the next. An engine with another device table and another content of its
transmit buffer carries out every line, and polls every queue, with the same calls and with the same
response, kit lock and peripherals afterwards. A response with bytes of the device has as many of
them as the first one delivered says, which are those delivered and zeros for the others. -/
theorem cycles_isolated {σ : Type} (environment : Environment σ) (state : σ) (engine : Engine)
    (devices : Element.DeviceTable) (transmit : TransmitBuffer) (line : Bytes)
    (queue : LineQueue) :
    let other : Engine := { engine with devices, transmit }
    let events := (engine.process line).trace environment state
    let processed := (engine.process line).run environment state
    let processed' := (other.process line).run environment state
    let polled := (engine.poll queue).run environment state
    let polled' := (other.poll queue).run environment state
    (events = (other.process line).trace environment state ∧
      processed.1.1 = processed'.1.1 ∧ processed.1.2.lock = processed'.1.2.lock ∧
      processed.2 = processed'.2) ∧
    ((engine.poll queue).trace environment state = (other.poll queue).trace environment state ∧
      polled.1.1 = polled'.1.1 ∧ polled.1.2.1.lock = polled'.1.2.1.lock ∧
      polled.1.2.2 = polled'.1.2.2 ∧ polled.2 = polled'.2) ∧
    ∀ command : DeviceCommand, Request.ofReceived line = .device command → command.Receives →
      command.failure? events = none →
      ∃ delivered : Bytes, events.filterMap Event.delivered? = [delivered] ∧
        processed.1.1 = Bytes.ofText "00(" ++
          Hex.encode ((List.range (delivered.headD 0).toNat).map fun i => delivered.getD i 0) ++
          Bytes.ofText ")\n" := by
  intro other events processed processed' polled polled'
  obtain ⟨hevents, ⟨hresponse, hlock⟩, hstate⟩ :=
    (engine.alike_process devices transmit line).run environment state
  obtain ⟨hcalls, ⟨hhandled, hlock', hqueue⟩, hstate'⟩ :=
    (engine.alike_poll devices transmit queue).run environment state
  -- what is left is about one engine: the bytes of its response are those of the device
  refine ⟨⟨hevents, hresponse, hlock, hstate⟩, ⟨hcalls, hhandled, hlock', hqueue, hstate'⟩, ?_⟩
  intro command hline hreceives hsuccess
  obtain ⟨delivered, hdelivered, hresponse⟩ :=
    process_received environment state engine hline hreceives hsuccess
  refine ⟨delivered, hdelivered, ?_⟩
  rw [← Bytes.resize_eq_map_range, ← Frame.render_success]
  exact hresponse

/-- A device that counts four bytes and delivers two, with old bytes in the transmit buffer. -/
theorem cycles_isolated_short :
    let packet : Bytes := [0x07, 0x30, 0x00, 0x00, 0x00, 0x03, 0x5D]
    let line := Bytes.ofText "s:t(0730000000035d)"
    let used : TransmitBuffer :=
      { bytes := List.replicate Frame.bufferSize 0xEE, length_bytes := List.length_replicate }
    let engine : Engine := { Engine.new 1 with transmit := used }
    let environment := workingDevice 1 [0x04, 0xAA]
    Request.ofReceived line = .device (.talk (some packet)) ∧
    DeviceCommand.failure? (.talk (some packet)) ((engine.process line).trace environment ()) =
      none ∧
    ((engine.process line).run environment ()).1.1 = Bytes.ofText "00(04AA0000)\n" := by
  intro packet line used engine environment
  have hline : Request.ofReceived line = .device (.talk (some packet)) := by decide
  have htrace : (engine.process line).trace environment () =
      [⟨.executionTime 0x30, .ok 1⟩, ⟨.wake, .ok ()⟩, ⟨.send (0x07 :: packet), .ok ()⟩,
        ⟨.delay 1, ()⟩, ⟨.receive 7, ⟨[0x04, 0xAA], .ok 2⟩⟩, ⟨.idle, .ok ()⟩] := rfl
  have hsuccess : DeviceCommand.failure? (.talk (some packet))
      ((engine.process line).trace environment ()) = none := by
    rw [htrace]
    rfl
  obtain ⟨-, -, hpayload⟩ := cycles_isolated environment () engine [] .blank line ⟨[], 0⟩
  obtain ⟨delivered, hdelivered, hresponse⟩ := hpayload _ hline trivial hsuccess
  rw [htrace] at hdelivered
  obtain rfl : [0x04, 0xAA] = delivered := (List.cons.inj hdelivered).1
  refine ⟨hline, hsuccess, hresponse.trans ?_⟩
  decide

end Engine

end SecureKit

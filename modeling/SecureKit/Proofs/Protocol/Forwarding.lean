import SecureKit.Proofs.Element.Packet
import SecureKit.Proofs.Protocol.Status

/-!
# Packets on the Bus

A command packet reaches the bus byte for byte, or not at all. The buffers of the engine have room
for every response, so a packet that came in a line is not refused for the lack of it.

* `Relays` — an error that comes from a call only.
* `packet_forwarded` — which packets reach the bus, in which form, and what is left untouched.
-/

namespace SecureKit

open Program

/-- The program fails in a way only if a call has failed with the error. -/
def Relays {α : Type} (program : Program α) (error : DeviceError) (failed : α → Prop) : Prop :=
  program.Ensures fun events value => failed value → ∃ event ∈ events, event.fault? = some error

/-- The earliest failure is the answer to one of the calls. -/
theorem Element.exists_of_firstFault? {events : List Event} {error : DeviceError}
    (h : firstFault? events = some error) : ∃ event ∈ events, event.fault? = some error :=
  List.exists_of_findSome?_eq_some h

/-- The buffer of the engine has room for every response. -/
theorem DeviceCommand.relays_smallBuffer (command : DeviceCommand) :
    Relays command.run .smallBuffer (·.outcome = .error (.device .smallBuffer)) := by
  refine Ensures.mono command.answers_run ?_
  rintro events answer ⟨hfailure, -⟩ houtcome
  rw [DeviceAnswer.failure?, houtcome] at hfailure
  cases hrefusal : command.refusal? with
  | some failure =>
    -- no check refuses a command for this
    rw [hrefusal, Option.some_or] at hfailure
    obtain rfl := Option.some.inj hfailure
    exact absurd (command.code_mem_of_refusal? hrefusal) (by decide)
  | none =>
    rw [hrefusal, Option.none_or] at hfailure
    obtain ⟨error, herror, hsame⟩ := Option.map_eq_some_iff.1 hfailure.symm
    cases hsame
    exact Element.exists_of_firstFault? herror

/-- The report about a device does not fail with an error of the device. -/
theorem BoardAnswer.outcome_ofDevice_ne (devices : Element.DeviceTable) (index : UInt8)
    (error : DeviceError) : (ofDevice devices index).outcome ≠ .error (.device error) := by
  rw [ofDevice]
  split
  · nofun
  · split_ifs <;> nofun

theorem BoardAnswer.outcome_ofFirmware_ne (index : UInt8) (error : DeviceError) :
    (ofFirmware index).outcome ≠ .error (.device error) := by
  rw [ofFirmware]
  split <;> nofun

/-- No application command fails for want of room. -/
theorem runApplication_ne_smallBuffer (load : Bytes) :
    (runApplication load).Ensures fun _ result => result ≠ .error .smallBuffer := by
  cases load with
  | nil => nofun
  | cons opcode record =>
    rw [runApplication]
    split_ifs
    · cases DateTime.ofPacked? record with
      | none => nofun
      | some date => exact fun _ => nofun
    · nofun

/-- Board commands do not report the failures of a discovery. -/
theorem BoardCommand.relays_smallBuffer (command : BoardCommand) (devices : Element.DeviceTable) :
    Relays (command.run devices) .smallBuffer (·.1.outcome = .error (.device .smallBuffer)) := by
  have hnone : (command.run devices).Ensures fun _ result =>
      result.1.outcome ≠ .error (.device .smallBuffer) := by
    match command with
    | version | unknown | application none | firmware none | firmware (some []) | discover none
    | discover (some []) => nofun
    | firmware (some (index :: _)) => exact BoardAnswer.outcome_ofFirmware_ne index _
    | discover (some (index :: _)) =>
      rw [run, ensures_bind]
      exact ensures_of_forall fun _ found => BoardAnswer.outcome_ofDevice_ne found.1 index _
    | application (some load) =>
      rw [run, ensures_bind]
      refine (runApplication_ne_smallBuffer load).mono fun events result hresult => ?_
      rcases result with error | _
      · exact fun herror => hresult (by simpa using herror)
      · nofun
  exact hnone.mono fun events result hresult herror => absurd herror hresult

namespace Element

/-- No response to a probe is refused for want of room. -/
theorem revisionOf_ne_smallBuffer (length : Nat) (response : Bytes) :
    revisionOf length response ≠ .error .smallBuffer := by
  rw [revisionOf]
  split_ifs <;> nofun

/-- The device is asked for its revision with enough room for the answer. -/
theorem relays_readRevision : Relays readRevision .smallBuffer (· = .error .smallBuffer) := by
  have hpacket : packetFault? revisionPacket = none := by decide +kernel
  have hlength : responseLengthOf revisionPacket = wordResponse := by decide +kernel
  -- so the room is no reason to refuse the packet, and the calls are the only source of errors
  have hroom : ∀ order, Order.ofPacket revisionPacket = .ok order →
      order.responseLength ≤ wordResponse := by
    intro order horder
    obtain ⟨order', horder', -, -, hlength'⟩ := ofPacket_of_packetFault?_eq_none hpacket
    obtain rfl : order = order' := Except.ok.inj (horder.symm.trans horder')
    exact Nat.le_of_eq (hlength'.trans hlength)
  rw [Relays, readRevision, ensures_bind]
  refine Ensures.mono (reports_talk_of_fits hroom) ?_
  rintro events exchange ⟨hfault, -⟩
  rw [hpacket, Option.none_or] at hfault
  cases houtcome : exchange.outcome with
  | ok length => exact fun hresult => absurd hresult (revisionOf_ne_smallBuffer _ _)
  | error error =>
    rw [houtcome] at hfault
    dsimp only
    rw [pure_eq, ensures_done, List.append_nil]
    rintro ⟨⟩
    exact exists_of_firstFault? hfault.symm

/-- A scan fails as its last probe does. -/
theorem relays_scan (addresses : List UInt8) {earlier : List Event}
    {result : Except DeviceError Revision}
    (h : result = .error .smallBuffer → ∃ event ∈ earlier, event.fault? = some .smallBuffer) :
    (scan addresses result).Ensures fun events value => value = .error .smallBuffer →
      ∃ event ∈ earlier ++ events, event.fault? = some .smallBuffer := by
  induction addresses generalizing earlier result with
  | nil =>
    have hscan : scan [] result = done result := by cases result <;> rfl
    rw [hscan, ensures_done, List.append_nil]
    exact h
  | cons address rest ih =>
    rcases result with error | revision
    · intro reply
      show (readRevision >>= scan rest).Ensures _
      rw [ensures_bind]
      refine relays_readRevision.mono fun events value hvalue => ?_
      -- the probe is one of the earlier ones for what is left of the scan
      have hprobed : value = .error .smallBuffer →
          ∃ event ∈ earlier ++ ⟨.select address, reply⟩ :: events,
            event.fault? = some .smallBuffer := by
        intro herror
        obtain ⟨event, hevent, hfault⟩ := hvalue herror
        exact ⟨event, List.mem_append_right _ (List.mem_cons_of_mem _ hevent), hfault⟩
      simpa only [List.append_assoc, List.cons_append] using ih hprobed
    · nofun

/-- A discovery fails for want of room only if one of its calls does. -/
theorem relays_discover : Relays discover .smallBuffer (·.2 = .error .smallBuffer) := by
  rw [Relays, discover, ensures_bind]
  refine relays_readRevision.mono fun events result hresult => ?_
  rw [ensures_bind]
  refine (relays_scan scanned hresult).mono fun later outcome houtcome => ?_
  rcases outcome with error | revision
  · show Except.error error = .error .smallBuffer → _
    simpa using houtcome
  · exact fun _ => nofun

end Element

/-- A discovery of the engine fails for want of room only if one of its calls does. -/
theorem Engine.relays_smallBuffer (engine : Engine) :
    Relays engine.discover .smallBuffer (·.1 = .error .smallBuffer) := by
  rw [Relays, discover, ensures_bind]
  refine Element.relays_discover.mono fun events found hfound => ?_
  obtain ⟨devices, outcome⟩ := found
  dsimp only
  rw [pure_eq, ensures_done, List.append_nil]
  intro herror
  refine hfound ?_
  rcases outcome with error | _
  · simpa [Except.map] using herror
  · cases herror

namespace Element

/-- Exactly the well-counted packets of a known opcode reach the bus, byte for byte, if their
execution time is known and there is room for the response. All others are refused before the device
is woken, for the first of the reasons there are. No byte behind the count is sent, and no frame is
too long. A buffer for the response is touched by the response only. In the engine, which always has
room enough, the bus is the only source of the error for too little of it. -/
theorem packet_forwarded {σ : Type} (environment : Environment σ) (state : σ) (packet : Bytes)
    (room : Nat) :
    Forwards environment state packet (some room) (talk packet room) ∧
    Forwards environment state packet none (send packet) ∧
    (∀ command : DeviceCommand,
      Relays command.run .smallBuffer (·.outcome = .error (.device .smallBuffer))) ∧
    (∀ (command : BoardCommand) (devices : DeviceTable),
      Relays (command.run devices) .smallBuffer (·.1.outcome = .error (.device .smallBuffer))) ∧
    ∀ engine : Engine, Relays engine.discover .smallBuffer (·.1 = .error .smallBuffer) :=
  ⟨forwards_of_handled (handled_talk packet room) environment state,
    forwards_of_handled (handled_send packet) environment state,
    DeviceCommand.relays_smallBuffer, BoardCommand.relays_smallBuffer, Engine.relays_smallBuffer⟩

-- The smallest packets and responses that are not refused, and bytes behind the count.
example :
    let refused := refusal? Command.defaultExecutionTime
    refused (some 7) [0x02, 0x30, 0x00] = some .invalidSize ∧
      refused (some 7) [0x03, 0x30] = some .invalidSize ∧
      refused (some 6) [0x03, 0x30, 0x00] = some .smallBuffer ∧
      refused (some 7) [0x03, 0x30, 0x00, 0xFF] = none ∧
      frameOf [0x03, 0x30, 0x00, 0xFF] = [0x03, 0x03, 0x30, 0x00] := by
  decide +kernel

end Element

end SecureKit

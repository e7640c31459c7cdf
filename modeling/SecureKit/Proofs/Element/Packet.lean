import SecureKit.Proofs.Element.Fault

/-!
# The Way of a Packet

A command packet is refused before the device is woken if it is badly counted or of an unknown
opcode, if its execution time is not known, or if there is not enough room for its response. All
other packets are sent up to their count.

* `refusal?` — why a packet is refused.
* `handled_talk`, `handled_send` — the events of the operations that send a packet, and what they
  store.
* `forwards_of_handled` — what follows for the frames that are sent and the buffer for the response.
-/

namespace SecureKit

open Program

/-- What is behind the bytes that were stored stays as it was. -/
theorem Bytes.drop_overlay {buffer stored : Bytes} {count : Nat} (h : stored.length ≤ count) :
    (buffer.overlay 0 stored).drop count = buffer.drop count := by
  have hrest : (stored ++ buffer.drop stored.length).drop count = buffer.drop count := by
    rw [List.drop_append, List.drop_of_length_le h, List.nil_append, List.drop_drop,
      Nat.add_sub_cancel' h]
  rw [overlay, List.take_zero, List.nil_append, Nat.zero_add, List.drop_take, hrest]
  exact List.take_of_length_le (by simp)

namespace Element

/-- The frame in which a packet is sent: its count, and the counted bytes. -/
def frameOf (packet : Bytes) : Bytes := packet.headD 0 :: packet.take (packet.headD 0).toNat

/-- The length of the response to a packet, from its opcode and its first parameter. -/
def responseLengthOf (packet : Bytes) : Nat :=
  ((Command.ofPacket? packet).map fun (command, param1) => command.responseLength param1).getD 0

/-- The execution times that the peripherals tell in a state. -/
def executionTimes {σ : Type} (environment : Environment σ) (state : σ) (opcode : UInt8) :
    Except DeviceError UInt32 :=
  (environment.answer (.executionTime opcode) state).1

/-- Why a packet is refused before the device is woken, from the execution times of the opcodes and
the room for the response, if it is to be received. -/
def refusal? (time : UInt8 → Except DeviceError UInt32) (room? : Option Nat) (packet : Bytes) :
    Option DeviceError :=
  (packetFault? packet).or
    ((DeviceError.ofResult? (time (packet.getD 1 0))).or
      (if room?.any (· < responseLengthOf packet) then some .smallBuffer else none))

/-- The steps for a packet that is not refused: it is sent, its execution is waited for, and the
response is received, if there is a room for it. -/
def packetSteps (packet : Bytes) (room? : Option Nat) (millis : UInt32) : List Call :=
  [.send (frameOf packet), .delay millis] ++
    (room?.map fun _ => Call.receive (responseLengthOf packet)).toList

/-- The events of carrying out steps with the device awake. -/
inductive Woken (steps : List Call) : List Event → Prop
  /-- The device does not wake, and no step is taken. -/
  | asleep (error : DeviceError) : Woken steps [⟨.wake, .error error⟩]
  /-- The device wakes, and is idled at the end. -/
  | awake {events : List Event} (hcarried : CarriedOut steps events)
      (idle : Except DeviceError Unit) :
      Woken steps (⟨.wake, .ok ()⟩ :: events ++ [⟨.idle, idle⟩])

/-- What is stored is what was delivered, and these are at most `room` bytes. -/
def Stored {α : Type} (room : Nat) (events : List Event) (exchange : Exchange α) : Prop :=
  exchange.stored = (events.filterMap Event.delivered?).flatten ∧ exchange.stored.length ≤ room

/-- The events and the result of an operation on a packet, with `room?` bytes for the response if it
is received. -/
inductive Handled {α : Type} (packet : Bytes) (room? : Option Nat) :
    List Event → Exchange α → Prop
  /-- There is something wrong with the packet. -/
  | refused {error : DeviceError} (hpacket : packetFault? packet = some error) :
      Handled packet room? [] (.failed error)
  /-- The execution time is not known. -/
  | untimed (hpacket : packetFault? packet = none) (error : DeviceError) :
      Handled packet room? [⟨.executionTime (packet.getD 1 0), .error error⟩] (.failed error)
  /-- There is not enough room for the response. -/
  | unfit (hpacket : packetFault? packet = none)
      (hroom : room?.any (· < responseLengthOf packet) = true) (millis : UInt32) :
      Handled packet room? [⟨.executionTime (packet.getD 1 0), .ok millis⟩] (.failed .smallBuffer)
  /-- The packet is not refused. -/
  | forwarded {millis : UInt32} {events : List Event} {exchange : Exchange α}
      (hpacket : packetFault? packet = none)
      (hroom : room?.any (· < responseLengthOf packet) = false)
      (hwoken : Woken (packetSteps packet room? millis) events)
      (hstored : Stored (responseLengthOf packet) events exchange) :
      Handled packet room? (⟨.executionTime (packet.getD 1 0), .ok millis⟩ :: events) exchange

section Order

variable {packet : Bytes}

/-- The count of a packet with nothing wrong stands in front of at least an opcode and a parameter,
and is within the bounds. -/
theorem eq_cons_of_packetFault?_eq_none (h : packetFault? packet = none) :
    ∃ count opcode param1 rest command, packet = count :: opcode :: param1 :: rest ∧
      countMin ≤ count.toNat ∧ count.toNat ≤ rest.length + 3 ∧ count.toNat ≤ commandMax ∧
      Command.ofOpcode? opcode = some command := by
  rcases packet with _ | ⟨count, rest⟩
  · cases h
  rw [packetFault?] at h
  by_cases hsize : count.toNat < countMin ∨ rest.length + 1 < count.toNat ∨
      commandMax < count.toNat
  · rw [if_pos hsize] at h
    cases h
  rw [if_neg hsize] at h
  simp only [not_or, Nat.not_lt] at hsize
  obtain ⟨hmin, hle, hmax⟩ := hsize
  have hlength : 2 ≤ rest.length := by
    have : countMin = 3 := rfl
    omega
  rcases rest with _ | ⟨opcode, _ | ⟨param1, rest⟩⟩
  · exact absurd hlength (by decide)
  · exact absurd hlength (by simp)
  cases hcommand : Command.ofOpcode? opcode with
  | none => simp [hcommand] at h
  | some command => exact ⟨count, opcode, param1, rest, command, rfl, hmin, hle, hmax, hcommand⟩

/-- A packet with nothing wrong is made into a frame and what is known of its command. -/
theorem ofPacket_of_packetFault?_eq_none (h : packetFault? packet = none) :
    ∃ order, Order.ofPacket packet = .ok order ∧ order.frame = frameOf packet ∧
      order.command.opcode = packet.getD 1 0 ∧
      order.responseLength = responseLengthOf packet := by
  obtain ⟨count, opcode, param1, rest, command, rfl, hmin, hle, hmax, hcommand⟩ :=
    eq_cons_of_packetFault?_eq_none h
  refine ⟨_, Order.ofPacket_eq_ok param1 hmin hle hmax hcommand, rfl, ?_, ?_⟩
  · exact Command.opcode_of_ofOpcode? hcommand
  · rw [responseLengthOf, ofPacket?_cons, hcommand]
    rfl

/-- The response that an order asks for is that of its packet. -/
theorem Order.responseLength_eq {order : Order} (h : ofPacket packet = .ok order) :
    order.responseLength = responseLengthOf packet := by
  have haccepted : packetFault? packet = none := by
    rw [← ofResult?_ofPacket, h]
    rfl
  obtain ⟨order', horder, -, -, hlength⟩ := ofPacket_of_packetFault?_eq_none haccepted
  obtain rfl := Except.ok.inj (h.symm.trans horder)
  exact hlength

/-- There is room for the frame of every packet with nothing wrong. -/
theorem length_frameOf_le (h : packetFault? packet = none) :
    (frameOf packet).length ≤ frameMax := by
  obtain ⟨count, opcode, param1, rest, command, rfl, -, -, hmax, -⟩ :=
    eq_cons_of_packetFault?_eq_none h
  rw [frameOf, List.headD_cons, List.length_cons]
  exact Nat.succ_le_succ (Nat.le_trans (List.length_take_le _ _) hmax)

end Order

section Handled

variable {α : Type} {packet : Bytes} {room? : Option Nat}

theorem stored_failed (room : Nat) (error : DeviceError) :
    (return Exchange.failed error : Program (Exchange α)).Ensures (Stored room) :=
  ⟨rfl, Nat.zero_le room⟩

theorem stored_return (room : Nat) (value : α) :
    (return ⟨[], .ok value⟩ : Program (Exchange α)).Ensures (Stored room) :=
  ⟨rfl, Nat.zero_le room⟩

/-- What is received is stored, as far as there is room. -/
theorem stored_receiveInto (room : Nat) : (receiveInto room).Ensures (Stored room) :=
  fun exchange => ⟨(List.append_nil _).symm, List.length_take_le room exchange.stored⟩

/-- Sending and waiting deliver nothing. -/
theorem stored_sendAnd {room : Nat} {rest : Program (Exchange α)} (h : rest.Ensures (Stored room))
    (frame : Bytes) (millis : UInt32) : (sendAnd frame millis rest).Ensures (Stored room) := by
  intro reply
  cases reply with
  | error error => exact stored_failed room error
  | ok _ => exact fun _ => h.mono fun _ _ hstored => hstored

/-- Waking and idling deliver nothing, and what was stored before a failure stays stored. -/
theorem woken_awake {operation : Program (Exchange α)} {steps : List Call} {room : Nat}
    (h : Follows operation steps) (hstored : operation.Ensures (Stored room)) :
    (awake operation).Ensures fun events exchange =>
      Woken steps events ∧ Stored room events exchange := by
  intro reply
  cases reply with
  | error error => exact ⟨.asleep error, rfl, Nat.zero_le room⟩
  | ok _ =>
    show (operation >>= fun exchange => perform .idle >>= fun idle =>
      return exchange.idled idle).Ensures _
    rw [ensures_bind]
    refine (Ensures.and h hstored).mono ?_
    rintro events exchange ⟨⟨hcarried, -⟩, hdelivered, hlength⟩ idle
    refine ⟨.awake hcarried idle, ?_, hlength⟩
    rw [List.filterMap_cons_none rfl, List.filterMap_append]
    exact hdelivered.trans (by simp [Event.delivered?])

/-- Talking handles its packet, and receives the response. -/
theorem handled_talk (packet : Bytes) (room : Nat) :
    (talk packet room).Ensures (Handled packet (some room)) := by
  cases hpacket : packetFault? packet with
  | some error =>
    rw [talk_of_packetFault? hpacket]
    exact .refused hpacket
  | none =>
    obtain ⟨order, horder, hframe, hopcode, hlength⟩ := ofPacket_of_packetFault?_eq_none hpacket
    rw [talk, horder]
    dsimp only
    -- from here on the operation is seen in terms of the packet
    rw [hframe, hopcode, hlength]
    simp only [perform_eq, call_bind, done_bind, ensures_call]
    intro reply
    cases reply with
    | error error => exact .untimed hpacket error
    | ok millis =>
      dsimp only
      by_cases hroom : room < responseLengthOf packet
      · rw [if_pos hroom]
        exact .unfit hpacket (by simpa using hroom) millis
      · rw [if_neg hroom]
        have hfollows := follows_sendAnd (follows_receiveInto (responseLengthOf packet))
          (frameOf packet) millis
        have hstored := stored_sendAnd (stored_receiveInto (responseLengthOf packet))
          (frameOf packet) millis
        refine (woken_awake hfollows hstored).mono fun events exchange h => ?_
        exact .forwarded hpacket (decide_eq_false hroom) h.1 h.2

/-- Sending handles its packet, and receives nothing. -/
theorem handled_send (packet : Bytes) : (send packet).Ensures (Handled packet none) := by
  cases hpacket : packetFault? packet with
  | some error =>
    rw [send_of_packetFault? hpacket]
    exact .refused hpacket
  | none =>
    obtain ⟨order, horder, hframe, hopcode, -⟩ := ofPacket_of_packetFault?_eq_none hpacket
    rw [send, horder]
    dsimp only
    rw [hframe, hopcode]
    intro reply
    cases reply with
    | error error => exact .untimed hpacket error
    | ok millis =>
      have hfollows := follows_sendAnd (follows_return ()) (frameOf packet) millis
      have hstored := stored_sendAnd (stored_return (responseLengthOf packet) ()) (frameOf packet)
        millis
      refine (woken_awake hfollows hstored).mono fun events exchange h => ?_
      exact .forwarded hpacket rfl h.1 h.2

end Handled

/-- What an operation does with a packet, with `room?` bytes for the response if it is received. -/
structure Forwards {σ α : Type} (environment : Environment σ) (state : σ) (packet : Bytes)
    (room? : Option Nat) (operation : Program (Exchange α)) : Prop where
  /-- The operation fails with no call but the look-up for the reason for which the packet is
  refused, and for no other reason. -/
  refused_iff : ∀ error,
    IsLookup (operation.trace environment state) ∧
        (operation.run environment state).1.outcome = .error error ↔
      refusal? (executionTimes environment state) room? packet = some error
  /-- If the packet is not refused, the device is woken, and if it wakes, it is sent the frame. -/
  woken : refusal? (executionTimes environment state) room? packet = none →
    ∃ millis events, operation.trace environment state =
      ⟨.executionTime (packet.getD 1 0), .ok millis⟩ :: events ∧
        Woken (packetSteps packet room? millis) events
  /-- The frame is not too long. -/
  framed : packetFault? packet = none → (frameOf packet).length ≤ frameMax
  /-- Nothing else is sent. -/
  sent : ∀ event ∈ operation.trace environment state, ∀ frame, event.call = .send frame →
    frame = frameOf packet
  /-- No more is received than the response. -/
  received : ∀ event ∈ operation.trace environment state, ∀ room, event.call = .receive room →
    room = responseLengthOf packet
  /-- A buffer into which the response is received is left untouched behind it. -/
  untouched : ∀ rx : Bytes, (rx.overlay 0 (operation.run environment state).1.stored).drop
    (responseLengthOf packet) = rx.drop (responseLengthOf packet)
  /-- If nothing is received, the whole buffer is left untouched. -/
  kept : (∀ event ∈ operation.trace environment state, event.delivered? = none) →
    ∀ rx : Bytes, rx.overlay 0 (operation.run environment state).1.stored = rx

section Forwards

variable {σ α : Type} {packet : Bytes} {room? : Option Nat} {events : List Event}
  {exchange : Exchange α}

/-- A packet is either refused, with no call but the look-up, or the device is woken for it. -/
theorem Handled.refused_or_woken (h : Handled packet room? events exchange)
    {time : UInt8 → Except DeviceError UInt32}
    (htime : ∀ opcode reply rest, events = ⟨.executionTime opcode, reply⟩ :: rest →
      time opcode = reply) :
    (∃ error, refusal? time room? packet = some error ∧ IsLookup events ∧
      exchange.outcome = .error error) ∨
    refusal? time room? packet = none ∧
      ∃ millis later, events = ⟨.executionTime (packet.getD 1 0), .ok millis⟩ :: later ∧
        Woken (packetSteps packet room? millis) later := by
  cases h with
  | refused hpacket => exact .inl ⟨_, by rw [refusal?, hpacket]; rfl, .none, rfl⟩
  | untimed hpacket error =>
    refine .inl ⟨error, ?_, .executionTime _ _, rfl⟩
    rw [refusal?, hpacket, htime _ _ _ rfl]
    rfl
  | unfit hpacket hroom millis =>
    refine .inl ⟨.smallBuffer, ?_, .executionTime _ _, rfl⟩
    rw [refusal?, hpacket, htime _ _ _ rfl, if_pos hroom]
    rfl
  | forwarded hpacket hroom hwoken hstored =>
    refine .inr ⟨?_, _, _, rfl, hwoken⟩
    rw [refusal?, hpacket, htime _ _ _ rfl, if_neg (by simp [hroom])]
    rfl

/-- The events of a device that is woken are more than a look-up. -/
theorem Woken.not_isLookup {steps : List Call} (h : Woken steps events) (event : Event) :
    ¬IsLookup (event :: events) := by
  cases h <;> rintro ⟨⟩

/-- The steps for a packet are calls of its transaction. -/
theorem mem_transaction_of_mem_packetSteps {call : Call} {millis : UInt32}
    (h : call ∈ packetSteps packet room? millis) :
    call ∈ transaction (packet.getD 1 0) (frameOf packet) millis (responseLengthOf packet) := by
  have hsteps : packetSteps packet room? millis ⊆
      [.send (frameOf packet), .delay millis, .receive (responseLengthOf packet)] := by
    cases room? <;> simp [packetSteps]
  have hmiddle : [Call.send (frameOf packet), .delay millis, .receive (responseLengthOf packet)] ⊆
      transaction (packet.getD 1 0) (frameOf packet) millis (responseLengthOf packet) := by
    simp [transaction]
  exact hmiddle (hsteps h)

/-- A device that is woken gets no calls but those of the transaction. -/
theorem Woken.call_mem {millis : UInt32} (h : Woken (packetSteps packet room? millis) events)
    {event : Event} (hevent : event ∈ events) :
    event.call ∈
      transaction (packet.getD 1 0) (frameOf packet) millis (responseLengthOf packet) := by
  cases h with
  | asleep error =>
    rw [List.mem_singleton.1 hevent]
    simp [transaction]
  | @awake carried hcarried idle =>
    rw [List.mem_append, List.mem_cons, List.mem_singleton] at hevent
    rcases hevent with (rfl | hevent) | rfl
    · simp [transaction]
    · -- what was carried out are the first of the steps
      have hcall := hcarried.calls_isPrefix.subset (List.mem_map_of_mem hevent)
      exact mem_transaction_of_mem_packetSteps hcall
    · simp [transaction]

/-- Handling a packet makes no calls but those of its transaction. -/
theorem Handled.call_mem (h : Handled packet room? events exchange) {event : Event}
    (hevent : event ∈ events) :
    ∃ millis, event.call ∈
      transaction (packet.getD 1 0) (frameOf packet) millis (responseLengthOf packet) := by
  cases h with
  | refused => cases hevent
  | untimed | unfit =>
    rw [List.mem_singleton.1 hevent]
    exact ⟨0, List.mem_cons_self⟩
  | forwarded hpacket hroom hwoken hstored =>
    rcases List.mem_cons.1 hevent with rfl | hevent
    · exact ⟨0, List.mem_cons_self⟩
    · exact ⟨_, hwoken.call_mem hevent⟩

/-- Nothing is stored but what was delivered, and no more than the response. -/
theorem Handled.stored (h : Handled packet room? events exchange) :
    Stored (responseLengthOf packet) events exchange := by
  cases h with
  | refused | untimed | unfit => exact ⟨rfl, Nat.zero_le _⟩
  | forwarded hpacket hroom hwoken hstored => exact hstored

/-- An operation that handles a packet forwards it. -/
theorem forwards_of_handled {operation : Program (Exchange α)}
    (h : operation.Ensures (Handled packet room?)) (environment : Environment σ) (state : σ) :
    Forwards environment state packet room? operation := by
  have hhandled := h.run environment state
  have htimes : ∀ opcode reply rest,
      operation.trace environment state = ⟨.executionTime opcode, reply⟩ :: rest →
      executionTimes environment state opcode = reply :=
    fun _ _ _ htrace => answer_of_trace_eq_cons htrace
  have houtcome := hhandled.refused_or_woken htimes
  have hcalls {event : Event} (hevent : event ∈ operation.trace environment state) :=
    hhandled.call_mem hevent
  obtain ⟨hstored, hlength⟩ := hhandled.stored
  constructor
  case refused_iff =>
    intro error
    rcases houtcome with ⟨error', hrefusal, hlookup, hfailed⟩ | ⟨hrefusal, millis, later, hwoken⟩
    · rw [hrefusal, hfailed]
      simp [hlookup]
    · obtain ⟨htrace, hwoken⟩ := hwoken
      rw [hrefusal, htrace]
      -- the look-up is followed by the wake
      exact iff_of_false (fun hfailed => hwoken.not_isLookup _ hfailed.1) nofun
  case woken =>
    intro hnone
    rcases houtcome with ⟨error, hrefusal, -⟩ | ⟨-, hwoken⟩
    · exact absurd (hnone.symm.trans hrefusal) nofun
    · exact hwoken
  case framed => exact length_frameOf_le
  case sent =>
    intro event hevent frame hcall
    obtain ⟨millis, hmem⟩ := hcalls hevent
    simpa [hcall, transaction] using hmem
  case received =>
    intro event hevent room hcall
    obtain ⟨millis, hmem⟩ := hcalls hevent
    simpa [hcall, transaction] using hmem
  case untouched => exact fun rx => Bytes.drop_overlay hlength
  case kept =>
    intro hnone rx
    rw [hstored, List.filterMap_eq_nil_iff.2 hnone]
    exact rx.overlay_nil 0

end Forwards

end Element

end SecureKit

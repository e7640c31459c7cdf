import SecureKit.Proofs.Element.Transaction

/-!
# The Earliest Fault

Of all that can go wrong in an operation, the first is reported. The packet is checked before any
call is made, and the calls come in a fixed order, so the earliest fault is also the first in the
order of the checks.

* `packetFault?` — what is wrong with a command packet.
* `Call.place` — the order of the calls.
* `reports_talk`, `reports_send`, `reports_receive` — each operation reports its earliest fault.
-/

namespace SecureKit

/-- The place of a call in a transaction: the execution time is looked up, the device is woken, a
frame is sent, its execution is waited for, the response is received, and the device is idled. -/
def Call.place : Call → Nat
  | .executionTime _ => 0
  | .wake => 1
  | .send _ => 2
  | .delay _ => 3
  | .receive _ => 4
  | _ => 5

namespace Element

open Program

/-- What is wrong with a command packet: it is empty, its count is bad, or the device has no command
with its opcode. -/
def packetFault? : Bytes → Option DeviceError
  | [] => some .badParam
  | count :: rest =>
    if count.toNat < countMin ∨ rest.length + 1 < count.toNat ∨ commandMax < count.toNat then
      some .invalidSize
    else if Command.ofOpcode? (rest.headD 0) = none then some .badOpcode
    else none

/-- The calls come in their places, each at most once. -/
def InPlace (events : List Event) : Prop :=
  (events.map Event.call).Pairwise fun call later => call.place < later.place

/-- An operation fails with `refusal?` and makes no call, if there is such a failure, and with the
earliest fault of its calls otherwise. The calls come in their places. -/
def Reports {α : Type} (operation : Program (Exchange α)) (refusal? : Option DeviceError) : Prop :=
  operation.Ensures fun events exchange =>
    DeviceError.ofResult? exchange.outcome = refusal?.or (firstFault? events) ∧ InPlace events ∧
      (refusal? ≠ none → events = [])

/-- A count of at least `countMin` keeps the opcode and the first parameter of a packet. -/
theorem take_of_countMin_le {size : Nat} (h : countMin ≤ size) (count opcode param1 : UInt8)
    (rest : Bytes) :
    (count :: opcode :: param1 :: rest).take size =
      count :: opcode :: param1 :: rest.take (size - countMin) := by
  obtain ⟨n, rfl⟩ : ∃ n, size = n + 3 := Nat.exists_eq_add_of_le' h
  rfl

/-- The command of a packet is that of its opcode. -/
theorem ofPacket?_cons (count opcode param1 : UInt8) (rest : Bytes) :
    Command.ofPacket? (count :: opcode :: param1 :: rest) =
      (Command.ofOpcode? opcode).map fun command => (command, param1) := by
  cases h : Command.ofOpcode? opcode <;> simp [Command.ofPacket?, h]

/-- A packet with a count and an opcode that are acceptable is accepted. -/
theorem Order.ofPacket_eq_ok {count opcode : UInt8} (param1 : UInt8) {rest : Bytes}
    {command : Command}
    (hmin : countMin ≤ count.toNat) (hle : count.toNat ≤ rest.length + 3)
    (hmax : count.toNat ≤ commandMax) (hcommand : Command.ofOpcode? opcode = some command) :
    ofPacket (count :: opcode :: param1 :: rest) =
      .ok { frame := count :: (count :: opcode :: param1 :: rest).take count.toNat
            command := command
            responseLength := command.responseLength param1 } := by
  have hvalid : ¬(count.toNat < countMin ∨
      (count :: opcode :: param1 :: rest).length < count.toNat ∨
      commandMax < count.toNat) := by
    simp only [List.length_cons]
    omega
  rw [ofPacket, if_neg hvalid]
  dsimp only
  rw [take_of_countMin_le hmin, ofPacket?_cons, hcommand, Option.map_some]

/-- A packet is refused for what is wrong with it. -/
theorem ofResult?_ofPacket (packet : Bytes) :
    DeviceError.ofResult? (Order.ofPacket packet) = packetFault? packet := by
  rcases packet with _ | ⟨count, rest⟩
  · rfl
  rw [Order.ofPacket, packetFault?, List.length_cons]
  by_cases hsize : count.toNat < countMin ∨ rest.length + 1 < count.toNat ∨
      commandMax < count.toNat
  · rw [if_pos hsize, if_pos hsize]
    rfl
  rw [if_neg hsize, if_neg hsize]
  simp only [not_or, Nat.not_lt] at hsize
  have hlength : 2 ≤ rest.length := by
    have hmin : 3 ≤ count.toNat := hsize.1
    omega
  -- there is a first parameter, and the opcode is the one that the order looks at
  rcases rest with _ | ⟨opcode, _ | ⟨param1, rest⟩⟩
  · exact absurd hlength (by decide)
  · exact absurd hlength (by simp)
  dsimp only
  rw [take_of_countMin_le hsize.1, ofPacket?_cons, List.headD_cons]
  cases Command.ofOpcode? opcode <;> rfl

/-- What is wrong with a packet is the error with which it is refused. -/
theorem ofPacket_of_packetFault? {packet : Bytes} {error : DeviceError}
    (h : packetFault? packet = some error) : Order.ofPacket packet = .error error := by
  rw [← ofResult?_ofPacket] at h
  cases horder : Order.ofPacket packet with
  | ok order => simp [horder, DeviceError.ofResult?] at h
  | error error' => simpa [horder, DeviceError.ofResult?] using h

/-- Talking does nothing with a packet that is refused. -/
theorem talk_of_packetFault? {packet : Bytes} {error : DeviceError}
    (h : packetFault? packet = some error) (room : Nat) :
    talk packet room = return .failed error := by
  rw [talk, ofPacket_of_packetFault? h]

/-- Sending does nothing with a packet that is refused. -/
theorem send_of_packetFault? {packet : Bytes} {error : DeviceError}
    (h : packetFault? packet = some error) : send packet = return .failed error := by
  rw [send, ofPacket_of_packetFault? h]

/-- The calls of carrying out steps are the first of these steps. -/
theorem CarriedOut.calls_isPrefix {steps : List Call} {events : List Event}
    (h : CarriedOut steps events) : events.map Event.call <+: steps := by
  induction h with
  | done => exact List.prefix_rfl
  | failed event rest hfault => exact ⟨rest, rfl⟩
  | next event hfault hrest ih => exact List.prefix_cons_inj _ |>.2 ih

/-- A look-up is no more than one call. -/
theorem IsLookup.calls_sublist {lookup : List Event} (h : IsLookup lookup) :
    ∃ opcode, List.Sublist (lookup.map Event.call) [.executionTime opcode] := by
  cases h with
  | none => exact ⟨0, List.nil_sublist _⟩
  | executionTime opcode reply => exact ⟨opcode, List.Sublist.refl _⟩

/-- No order asks for more than the largest response. -/
theorem Order.responseLength_le {packet : Bytes} {order : Order}
    (h : ofPacket packet = .ok order) : order.responseLength ≤ responseMax := by
  cases packet with
  | nil => cases h
  | cons count rest =>
    rw [ofPacket] at h
    dsimp only at h
    split at h
    · cases h
    · split at h
      · cases h
      · cases h
        exact Command.responseLength_le _ _

/-- All calls of a transaction, in order. -/
def transaction (opcode : UInt8) (frame : Bytes) (millis : UInt32) (room : Nat) : List Call :=
  [.executionTime opcode, .wake, .send frame, .delay millis, .receive room, .idle]

/-- Calls that leave out some of those of a transaction come in their places. -/
theorem inPlace_of_sublist {events : List Event} (opcode : UInt8) (frame : Bytes) (millis : UInt32)
    (room : Nat)
    (h : List.Sublist (events.map Event.call) (transaction opcode frame millis room)) :
    InPlace events := by
  have hplaces : ((transaction opcode frame millis room).map Call.place).Pairwise (· < ·) :=
    show [0, 1, 2, 3, 4, 5].Pairwise (· < ·) by decide
  exact List.Pairwise.sublist h (List.pairwise_map.1 hplaces)

section Reports

variable {α : Type} {frame : Bytes} {millis : UInt32} {room : Nat}

/-- A transaction that is not refused reports the earliest fault of its calls. -/
theorem Transacted.reports {steps : List Call} {events : List Event}
    {outcome : Except DeviceError α} (h : Transacted (fun _ => some (.ok steps)) events outcome)
    (hsteps : List.Sublist steps [.send frame, .delay millis, .receive room]) :
    DeviceError.ofResult? outcome = firstFault? events ∧ InPlace events := by
  cases h with
  | rejected _ hrefused => exact absurd (Option.some.inj hrefused) nofun
  | asleep hlookup _ hfault =>
    obtain ⟨opcode, hcalls⟩ := hlookup.calls_sublist
    refine ⟨by rw [firstFault?_append, hfault]; rfl, ?_⟩
    have hwake : List.Sublist [Call.wake] (transaction opcode frame millis room).tail := by
      simp [transaction]
    refine inPlace_of_sublist opcode frame millis room ?_
    rw [List.map_append]
    exact hcalls.append hwake
  | @awake lookup carried _ idle _ hlookup hsome hfault hcarried houtcome =>
    obtain ⟨opcode, hcalls⟩ := hlookup.calls_sublist
    obtain rfl := Except.ok.inj (Option.some.inj hsome)
    constructor
    · -- neither the look-up nor the waking has failed, so the fault is one of the later calls
      rw [houtcome, List.append_assoc, firstFault?_append lookup, hfault]
      rfl
    · have hmiddle := hcarried.calls_isPrefix.sublist.trans hsteps
      refine inPlace_of_sublist opcode frame millis room ?_
      rw [List.map_append, List.map_append, List.map_cons]
      exact (hcalls.append (hmiddle.cons_cons Call.wake)).append (List.Sublist.refl [Call.idle])

/-- An operation done awake reports the earliest fault of its calls, those of a look-up in front of
it included. -/
theorem reports_awake {operation : Program (Exchange α)} {steps : List Call}
    (h : Follows operation steps)
    (hsteps : List.Sublist steps [.send frame, .delay millis, .receive room]) {lookup : List Event}
    (hlookup : IsLookup lookup) (hfault : firstFault? lookup = none) :
    (awake operation).Ensures fun events exchange =>
      DeviceError.ofResult? exchange.outcome = firstFault? (lookup ++ events) ∧
        InPlace (lookup ++ events) := by
  have htransacted : (awake operation).Ensures fun events exchange =>
      Transacted (fun _ => some (.ok steps)) (lookup ++ events) exchange.outcome :=
    transacted_awake h hlookup rfl hfault
  exact htransacted.mono fun _ _ h => h.reports hsteps

/-- A packet that was refused is reported without a call. -/
theorem reports_refused {packet : Bytes} {error : DeviceError}
    (h : Order.ofPacket packet = .error error) :
    Reports (return Exchange.failed error : Program (Exchange α)) (packetFault? packet) := by
  rw [← ofResult?_ofPacket, h]
  exact ⟨rfl, .nil, fun _ => rfl⟩

/-- An accepted packet is reported on from the look-up of its execution time on. -/
theorem reports_accepted {packet : Bytes} {order : Order} (h : Order.ofPacket packet = .ok order)
    {next : Except DeviceError UInt32 → Program (Exchange α)}
    (herror : ∀ error, next (.error error) = return .failed error)
    (hok : ∀ millis, (next (.ok millis)).Ensures fun events exchange =>
      DeviceError.ofResult? exchange.outcome =
          firstFault? (⟨.executionTime order.command.opcode, .ok millis⟩ :: events) ∧
        InPlace (⟨.executionTime order.command.opcode, .ok millis⟩ :: events)) :
    Reports (perform (.executionTime order.command.opcode) >>= next) (packetFault? packet) := by
  rw [← ofResult?_ofPacket, h]
  intro reply
  cases reply with
  | error error =>
    show (next (.error error)).Ensures _
    rw [herror]
    exact ⟨rfl, List.pairwise_singleton _ _, fun hnone => absurd rfl hnone⟩
  | ok millis =>
    refine (hok millis).mono fun events exchange hreported => ?_
    exact ⟨hreported.1, hreported.2, fun hnone => absurd rfl hnone⟩

/-- Talking with enough room for the response reports its earliest fault. -/
theorem reports_talk_of_fits {packet : Bytes} {room : Nat}
    (hroom : ∀ order, Order.ofPacket packet = .ok order → order.responseLength ≤ room) :
    Reports (talk packet room) (packetFault? packet) := by
  rw [talk]
  cases horder : Order.ofPacket packet with
  | error error => exact reports_refused horder
  | ok order =>
    refine reports_accepted horder (fun _ => rfl) fun millis => ?_
    -- there is room for the response, which is the last thing that is checked
    dsimp only
    rw [if_neg (Nat.not_lt.2 (hroom order horder))]
    exact reports_awake (follows_sendAnd (follows_receiveInto _) _ _) (List.Sublist.refl _)
      (.executionTime _ _) rfl

/-- Talking with enough room for every response reports its earliest fault. -/
theorem reports_talk (packet : Bytes) {room : Nat} (hroom : responseMax ≤ room) :
    Reports (talk packet room) (packetFault? packet) :=
  reports_talk_of_fits fun _ horder => Nat.le_trans (Order.responseLength_le horder) hroom

/-- Sending reports its earliest fault. -/
theorem reports_send (packet : Bytes) : Reports (send packet) (packetFault? packet) := by
  rw [send]
  cases horder : Order.ofPacket packet with
  | error error => exact reports_refused horder
  | ok order =>
    refine reports_accepted horder (fun _ => rfl) fun millis => ?_
    have hsteps : List.Sublist [Call.send order.frame, .delay millis]
        [.send order.frame, .delay millis, .receive 0] := by simp
    exact reports_awake (follows_sendAnd (follows_return ()) _ _) hsteps (.executionTime _ _) rfl

/-- Receiving reports its earliest fault; there is nothing to refuse. -/
theorem reports_receive (size room : Nat) : Reports (receive size room) none := by
  have hsteps : List.Sublist [Call.receive (min size room)]
      [.send [], .delay 0, .receive (min size room)] := by simp
  refine (reports_awake (follows_receiveInto _) hsteps .none rfl).mono ?_
  rintro events exchange ⟨hfault, hplace⟩
  exact ⟨hfault, hplace, fun hnone => absurd rfl hnone⟩

end Reports

end Element

end SecureKit

import SecureKit.Element.Transaction
import SecureKit.Proofs.Peripheral.Program

/-!
# The Course of a Transaction

Every operation that wakes the device idles it again, and nothing else stands after the first
failure. `Transacted` describes the calls of an operation together with its result:

* an operation that is refused makes no call but the look-up of an execution time;
* a device that does not wake is left alone;
* a device that wakes gets the steps of the operation up to the first that fails (`CarriedOut`), and
  one idle call after them.

The result is the earliest failure in each case. `transacted_awake` shows this for every operation
that carries out its steps, and `transacted_operations` for the three there are. What an operation
that receives has left is what the bus has answered (`Returns`, `Receives`).
-/

namespace SecureKit

/-- The failure of a device operation, if it has failed. -/
def DeviceError.ofResult? {α : Type} : Except DeviceError α → Option DeviceError
  | .ok _ => none
  | .error error => some error

/-- The failure a call of the bus was answered with, if any. -/
def Event.fault? : Event → Option DeviceError
  | ⟨.wake, reply⟩ | ⟨.idle, reply⟩ | ⟨.sleep, reply⟩ | ⟨.send _, reply⟩
  | ⟨.executionTime _, reply⟩ => DeviceError.ofResult? reply
  | ⟨.receive _, exchange⟩ => DeviceError.ofResult? exchange.outcome
  | _ => none

/-- The bytes that the device has delivered in an event, as far as the window of the call goes. -/
def Event.delivered? : Event → Option Bytes
  | ⟨.receive room, exchange⟩ => some (exchange.stored.take room)
  | _ => none

/-- What the bus has answered when it was asked for a response, as far as the window of the call
goes. -/
def Event.answered? : Event → Option (Exchange Nat)
  | ⟨.receive room, exchange⟩ => some { exchange with stored := exchange.stored.take room }
  | _ => none

/-- The bytes that were delivered are those of the answer. -/
theorem Event.delivered?_eq (event : Event) :
    event.delivered? = event.answered?.map Exchange.stored := by
  obtain ⟨call, reply⟩ := event
  cases call <;> rfl

namespace Element

open Program

/-- The earliest failure among events. -/
def firstFault? (events : List Event) : Option DeviceError := events.findSome? Event.fault?

/-- The events of carrying out steps in order, cut right after the first that fails. -/
inductive CarriedOut : List Call → List Event → Prop
  /-- There are no more steps. -/
  | done : CarriedOut [] []
  /-- A step has failed. -/
  | failed (event : Event) (rest : List Call) (hfault : event.fault? ≠ none) :
      CarriedOut (event.call :: rest) [event]
  /-- A step has succeeded. -/
  | next (event : Event) {steps : List Call} {events : List Event} (hfault : event.fault? = none)
      (hrest : CarriedOut steps events) : CarriedOut (event.call :: steps) (event :: events)

/-- Events that leave the device alone: at most the look-up of an execution time. -/
inductive IsLookup : List Event → Prop
  /-- Nothing is looked up. -/
  | none : IsLookup []
  /-- An execution time is looked up. -/
  | executionTime (opcode : UInt8) (reply : Except DeviceError UInt32) :
      IsLookup [⟨.executionTime opcode, reply⟩]

/-- The plan of an operation: what it does after a look-up, which is to take steps or to fail. It
has none for a look-up that it does not make. -/
abbrev Plan := List Event → Option (Except DeviceError (List Call))

/-- The events and the result of an operation with a plan. -/
inductive Transacted {α : Type} (plan : Plan) : List Event → Except DeviceError α → Prop
  /-- The operation fails as planned, and with the failure of the look-up if that has failed. The
  device is not woken. -/
  | rejected {lookup : List Event} {error : DeviceError} (hlookup : IsLookup lookup)
      (hplan : plan lookup = some (.error error))
      (herror : ∀ fault, firstFault? lookup = some fault → error = fault) :
      Transacted plan lookup (.error error)
  /-- The device does not wake. -/
  | asleep {lookup : List Event} {steps : List Call} {error : DeviceError}
      (hlookup : IsLookup lookup) (hplan : plan lookup = some (.ok steps))
      (hfault : firstFault? lookup = none) :
      Transacted plan (lookup ++ [⟨.wake, .error error⟩]) (.error error)
  /-- The device wakes, and is idled at the end. -/
  | awake {lookup events : List Event} {steps : List Call} {idle : Except DeviceError Unit}
      {outcome : Except DeviceError α} (hlookup : IsLookup lookup)
      (hplan : plan lookup = some (.ok steps)) (hfault : firstFault? lookup = none)
      (hcarried : CarriedOut steps events)
      (houtcome : DeviceError.ofResult? outcome = firstFault? (events ++ [⟨.idle, idle⟩])) :
      Transacted plan (lookup ++ ⟨.wake, .ok ()⟩ :: events ++ [⟨.idle, idle⟩]) outcome

/-- The plan of an operation that needs nothing to be looked up. -/
def Plan.ofResult (result : Except DeviceError (List Call)) : Plan
  | [] => some result
  | _ => none

/-- The plan of an operation that looks up the execution time of an opcode. -/
def Plan.timed (opcode : UInt8) (next : UInt32 → Except DeviceError (List Call)) : Plan
  | [⟨.executionTime opcode', reply⟩] => if opcode' = opcode then some (reply.bind next) else none
  | _ => none

/-- A packet that is not accepted is refused at once, and the execution time of any other is looked
up. -/
def sendPlan (packet : Bytes) : Plan :=
  match Order.ofPacket packet with
  | .error error => .ofResult (.error error)
  | .ok order => .timed order.command.opcode fun millis => .ok [.send order.frame, .delay millis]

/-- The same with `room` bytes for the response, which must be enough for it. -/
def talkPlan (packet : Bytes) (room : Nat) : Plan :=
  match Order.ofPacket packet with
  | .error error => .ofResult (.error error)
  | .ok order => .timed order.command.opcode fun millis =>
    if room < order.responseLength then .error .smallBuffer
    else .ok [.send order.frame, .delay millis, .receive order.responseLength]

/-- Receiving is never refused. -/
def receivePlan (size room : Nat) : Plan := .ofResult (.ok [.receive (min size room)])

/-- The operation carries out the steps and fails with the earliest failure of them. -/
def Follows {α : Type} (operation : Program (Exchange α)) (steps : List Call) : Prop :=
  operation.Ensures fun events exchange =>
    CarriedOut steps events ∧ DeviceError.ofResult? exchange.outcome = firstFault? events

variable {α : Type}

/-- The failure of an exchange wins over one of the idling after it. -/
theorem ofResult?_idled (exchange : Exchange α) (idle : Except DeviceError Unit) :
    DeviceError.ofResult? (exchange.idled idle).outcome =
      (DeviceError.ofResult? exchange.outcome).or (DeviceError.ofResult? idle) := by
  obtain ⟨stored, outcome⟩ := exchange
  cases outcome <;> cases idle <;> rfl

/-- Later failures do not matter if there is an earlier one. -/
theorem firstFault?_append (events events' : List Event) :
    firstFault? (events ++ events') = (firstFault? events).or (firstFault? events') := by
  rw [firstFault?, List.findSome?_append]
  rfl

/-- An operation that does nothing has no steps. -/
theorem follows_return (value : α) : Follows (return ⟨[], .ok value⟩) [] :=
  ⟨.done, rfl⟩

theorem follows_receiveInto (room : Nat) : Follows (receiveInto room) [.receive room] := by
  rintro ⟨stored, outcome⟩
  cases outcome with
  | ok length => exact ⟨.next ⟨.receive room, ⟨stored, .ok length⟩⟩ rfl .done, rfl⟩
  | error error => exact ⟨.failed ⟨.receive room, ⟨stored, .error error⟩⟩ [] nofun, rfl⟩

/-- Sending and waiting come before the steps of the rest. -/
theorem follows_sendAnd {rest : Program (Exchange α)} {steps : List Call} (h : Follows rest steps)
    (frame : Bytes) (millis : UInt32) :
    Follows (sendAnd frame millis rest) (.send frame :: .delay millis :: steps) := by
  intro reply
  cases reply with
  | error error => exact ⟨.failed ⟨.send frame, .error error⟩ _ nofun, rfl⟩
  | ok _ =>
    -- waiting cannot fail
    intro reply
    refine Ensures.mono h ?_
    rintro events exchange ⟨hsteps, houtcome⟩
    exact ⟨.next ⟨.send frame, .ok ()⟩ rfl (.next ⟨.delay millis, reply⟩ rfl hsteps), houtcome⟩

/-- An operation done awake takes the course of a transaction. -/
theorem transacted_awake {operation : Program (Exchange α)} {steps : List Call}
    (h : Follows operation steps) {plan : Plan} {lookup : List Event}
    (hlookup : IsLookup lookup) (hplan : plan lookup = some (.ok steps))
    (hfault : firstFault? lookup = none) :
    (awake operation).Ensures fun events exchange =>
      Transacted plan (lookup ++ events) exchange.outcome := by
  simp only [awake, perform_eq, call_bind, done_bind, ensures_call]
  intro reply
  cases reply with
  | error error => exact .asleep hlookup hplan hfault
  | ok _ =>
    -- from here on there is one way out, through the idle call
    rw [ensures_bind]
    refine Ensures.mono h ?_
    rintro events exchange ⟨hcarried, houtcome⟩ idle
    have hidled : DeviceError.ofResult? (exchange.idled idle).outcome =
        firstFault? (events ++ [⟨.idle, idle⟩]) := by
      rw [ofResult?_idled, houtcome, firstFault?_append]
      cases idle <;> rfl
    simpa using Transacted.awake hlookup hplan hfault hcarried hidled

/-- The look-up that a plan asks for decides how it goes on. -/
@[simp]
theorem Plan.timed_executionTime (opcode : UInt8) (reply : Except DeviceError UInt32)
    (next : UInt32 → Except DeviceError (List Call)) :
    Plan.timed opcode next [⟨.executionTime opcode, reply⟩] = some (reply.bind next) :=
  if_pos rfl

/-- Talking takes the course of a transaction. -/
theorem transacted_talk (packet : Bytes) (room : Nat) :
    (talk packet room).Ensures fun events exchange =>
      Transacted (talkPlan packet room) events exchange.outcome := by
  rw [talk, talkPlan]
  cases horder : Order.ofPacket packet with
  | error error => exact .rejected .none rfl (by rintro _ ⟨⟩)
  | ok order =>
    simp only [perform_eq, call_bind, done_bind, ensures_call]
    intro reply
    have hlookup := IsLookup.executionTime order.command.opcode reply
    cases reply with
    | error error =>
      exact .rejected hlookup (Plan.timed_executionTime ..) fun _ h => Option.some.inj h
    | ok millis =>
      dsimp only
      by_cases hroom : room < order.responseLength
      · -- a response for which there is no room is refused before the device is woken
        rw [if_pos hroom]
        exact .rejected hlookup (by simp [Except.bind, hroom]) (by rintro _ ⟨⟩)
      · rw [if_neg hroom]
        have hfollows :=
          follows_sendAnd (follows_receiveInto order.responseLength) order.frame millis
        exact transacted_awake hfollows hlookup (by simp [Except.bind, hroom]) rfl

/-- Sending takes the course of a transaction. -/
theorem transacted_send (packet : Bytes) :
    (send packet).Ensures fun events exchange =>
      Transacted (sendPlan packet) events exchange.outcome := by
  rw [send, sendPlan]
  cases horder : Order.ofPacket packet with
  | error error => exact .rejected .none rfl (by rintro _ ⟨⟩)
  | ok order =>
    simp only [perform_eq, call_bind, done_bind, ensures_call]
    intro reply
    have hlookup := IsLookup.executionTime order.command.opcode reply
    cases reply with
    | error error =>
      exact .rejected hlookup (Plan.timed_executionTime ..) fun _ h => Option.some.inj h
    | ok millis =>
      have hfollows := follows_sendAnd (follows_return ()) order.frame millis
      exact transacted_awake hfollows hlookup (Plan.timed_executionTime ..) rfl

/-- Receiving takes the course of a transaction. -/
theorem transacted_receive (size room : Nat) :
    (receive size room).Ensures fun events exchange =>
      Transacted (receivePlan size room) events exchange.outcome :=
  transacted_awake (follows_receiveInto _) .none rfl rfl

/-- Each of the three operations fails with no call but the look-up of an execution time, for the
reason for which its plan refuses it, or wakes the device in vain, or wakes it, carries out its
steps up to the first failure and idles it; its result is the earliest failure, if there is one. -/
theorem transacted_operations {σ : Type} (environment : Environment σ) (state : σ) (packet : Bytes)
    (size room : Nat) :
    Transacted (talkPlan packet room)
      ((talk packet room).trace environment state)
      ((talk packet room).run environment state).1.outcome ∧
    Transacted (sendPlan packet)
      ((send packet).trace environment state)
      ((send packet).run environment state).1.outcome ∧
    Transacted (receivePlan size room)
      ((receive size room).trace environment state)
      ((receive size room).run environment state).1.outcome :=
  ⟨(transacted_talk packet room).run environment state,
    (transacted_send packet).run environment state,
    (transacted_receive size room).run environment state⟩

/-- If the operation succeeds, it leaves exactly what the device has delivered in its one call of
receiving, which are at most `room` bytes. -/
def Receives (operation : Program (Exchange Nat)) (room : Nat) : Prop :=
  operation.Ensures fun events exchange =>
    DeviceError.ofResult? exchange.outcome = none →
      events.filterMap Event.delivered? = [exchange.stored] ∧ exchange.stored.length ≤ room

/-- If the operation succeeds, its exchange is exactly what the bus has answered in its one call of
receiving, with at most `room` bytes. -/
def Returns (operation : Program (Exchange Nat)) (room : Nat) : Prop :=
  operation.Ensures fun events exchange =>
    DeviceError.ofResult? exchange.outcome = none →
      events.filterMap Event.answered? = [exchange] ∧ exchange.stored.length ≤ room

section Returns

variable {operation : Program (Exchange Nat)} {room : Nat}

/-- The bytes that were delivered are a part of what was answered. -/
theorem Returns.receives (h : Returns operation room) : Receives operation room := by
  refine Ensures.mono h fun events exchange hreturned hnone => ?_
  obtain ⟨hanswered, hlength⟩ := hreturned hnone
  refine ⟨?_, hlength⟩
  have hdelivered : Event.delivered? = fun event => event.answered?.map Exchange.stored :=
    funext Event.delivered?_eq
  rw [hdelivered, ← List.map_filterMap, hanswered]
  rfl

theorem returns_failed (error : DeviceError) : Returns (return .failed error) room := by
  rintro ⟨⟩

/-- What is received is the answer of the bus, as far as there is room. -/
theorem returns_receiveInto {room' : Nat} (h : room' ≤ room) :
    Returns (receiveInto room') room := by
  intro exchange _
  refine ⟨rfl, ?_⟩
  exact Nat.le_trans (List.length_take_le room' exchange.stored) h

/-- Nothing is answered by sending and waiting. -/
theorem returns_sendAnd (h : Returns operation room) (frame : Bytes) (millis : UInt32) :
    Returns (sendAnd frame millis operation) room := by
  intro reply
  cases reply with
  | error error => exact returns_failed error
  | ok _ => exact fun _ => Ensures.mono h fun _ _ hreturned => hreturned

/-- Nothing is answered by waking and idling, and an operation that fails to idle has not
succeeded. -/
theorem returns_awake (h : Returns operation room) : Returns (awake operation) room := by
  intro reply
  cases reply with
  | error error => exact returns_failed error
  | ok _ =>
    show (operation >>= fun exchange => perform .idle >>= fun idle =>
      return exchange.idled idle).Ensures _
    rw [ensures_bind]
    refine Ensures.mono h fun events exchange hreturned idle hidled => ?_
    cases idle with
    | error error =>
      rw [ofResult?_idled, Option.or_eq_none_iff] at hidled
      exact absurd hidled.2 nofun
    | ok _ =>
      rw [Exchange.idled_ok] at hidled ⊢
      obtain ⟨hanswered, hlength⟩ := hreturned hidled
      refine ⟨?_, hlength⟩
      rw [List.filterMap_cons_none rfl, List.filterMap_append, hanswered]
      rfl

/-- Talking returns the answer of the bus. -/
theorem returns_talk (packet : Bytes) (room : Nat) : Returns (talk packet room) room := by
  rw [talk]
  cases Order.ofPacket packet with
  | error error => exact returns_failed error
  | ok order =>
    intro reply
    cases reply with
    | error error => exact returns_failed error
    | ok millis =>
      dsimp only
      split
      · exact returns_failed .smallBuffer
      · next hroom =>
        exact returns_awake (returns_sendAnd (returns_receiveInto (Nat.not_lt.1 hroom)) _ _)

/-- Talking receives what the device has delivered. -/
theorem receives_talk (packet : Bytes) (room : Nat) : Receives (talk packet room) room :=
  (returns_talk packet room).receives

theorem receives_receive (size room : Nat) : Receives (receive size room) room :=
  (returns_awake (returns_receiveInto (Nat.min_le_right size room))).receives

end Returns

end Element

end SecureKit

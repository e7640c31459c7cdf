import SecureKit.Proofs.Cloud.Session
import SecureKit.Simulation.Bench

/-!
# Message Numbers

The client numbers its messages from one to `messageIdMax` and then starts over. A number is taken
by a step that publishes, whatever comes of it, and by nothing else: the number of the last message
stays with the client through failures, lost networks and new sessions.

* `Client.Course.numbering` — a step that publishes takes the next number, any other takes none.
* `Client.Numbered` — the numbers of the messages in a history.
* `Client.session_numbered` — the messages are numbered without a gap in every run.
-/

namespace SecureKit

open Program

/-- The number under which a message is published in an event, if one is. -/
def Event.messageId? : Event → Option UInt16
  | ⟨.publish _ id _, _⟩ => some id
  | _ => none

namespace Client

/-- The calls that were made in an occurrence. -/
def Occurrence.events : Occurrence → List Event
  | step _ events _ | configure events => events
  | tick | other => []

/-- The numbers of the messages in a history, in order, those that could not be delivered
included. -/
def messageIds (history : List Occurrence) : List UInt16 :=
  (history.flatMap Occurrence.events).filterMap Event.messageId?

/-- The number of the message that has `k` messages before it. -/
def numberAt (k : Nat) : UInt16 := UInt16.ofNat (k % messageIdMax.toNat + 1)

/-- The number that the client holds after `count` messages: that of the last one, or zero. -/
def lastNumber : Nat → UInt16
  | 0 => 0
  | count + 1 => numberAt count

@[simp]
theorem toNat_messageIdMax : messageIdMax.toNat = 65533 := rfl

/-- The numbers go round from one to the largest. -/
theorem toNat_numberAt (k : Nat) : (numberAt k).toNat = k % messageIdMax.toNat + 1 := by
  rw [numberAt, UInt16.toNat_ofNat', Nat.mod_eq_of_lt]
  -- a number does not come near the end of its type
  have hlt : k % messageIdMax.toNat < messageIdMax.toNat := Nat.mod_lt k (by decide)
  rw [toNat_messageIdMax] at hlt ⊢
  omega

/-- After `count` messages the next number is the one with `count` messages before it. -/
theorem nextMessageId_lastNumber (count : Nat) :
    nextMessageId (lastNumber count) = numberAt count := by
  cases count with
  | zero => decide
  | succ k =>
    apply UInt16.toNat_inj.1
    rw [lastNumber, nextMessageId, toNat_numberAt]
    have hlast := toNat_numberAt k
    -- either there is room for one more number, or the last one was the largest
    by_cases hlt : numberAt k < messageIdMax
    · rw [if_pos hlt, UInt16.toNat_add, hlast]
      rw [UInt16.lt_iff_toNat_lt, hlast] at hlt
      simp only [UInt16.reduceToNat, toNat_messageIdMax] at hlt ⊢
      omega
    · rw [if_neg hlt]
      rw [UInt16.lt_iff_toNat_lt, hlast] at hlt
      simp only [UInt16.reduceToNat, toNat_messageIdMax] at hlt ⊢
      omega

/-- Two messages have the same number only if a full round of numbers lies between them. -/
theorem numberAt_injOn {i j : Nat} (hle : i ≤ j) (hlt : j < i + messageIdMax.toNat)
    (h : numberAt i = numberAt j) : i = j := by
  have hnumber := congrArg UInt16.toNat h
  rw [toNat_numberAt, toNat_numberAt] at hnumber
  rw [toNat_messageIdMax] at hlt hnumber
  omega

/-- What is called takes no number and the client keeps the last one, or one message is published
under the next number, which the client then holds. -/
def Numbering (client : Client) (events : List Event) (client' : Client) : Prop :=
  (events.filterMap Event.messageId? = [] ∧ client'.messageId = client.messageId) ∨
    events.filterMap Event.messageId? = [nextMessageId client.messageId] ∧
      client'.messageId = nextMessageId client.messageId

section Numbering

variable {client client' : Client} {events : List Event}

theorem Opening.filterMap_messageId? {identity : Identity} {clientId topic : String}
    {result : Except CloudError Unit} (h : Opening identity clientId topic events result) :
    events.filterMap Event.messageId? = [] := by
  cases h <;> rfl

theorem Reconfigured.filterMap_messageId? (h : client.Reconfigured events client') :
    events.filterMap Event.messageId? = [] := by
  obtain rfl | ⟨now, rfl⟩ := h.events_eq <;> rfl

theorem Reconfigured.messageId_eq (h : client.Reconfigured events client') :
    client'.messageId = client.messageId := by
  rw [h.client_eq]

/-- A publication takes the next number if its message is sent, and none if it fails before that. -/
theorem Publication.numbering (h : client.Publication events client') :
    client.Numbering events client' := by
  -- the number is taken right before the call, so nothing that fails earlier takes one
  cases h with
  | noTemperature | noFanSpeed | unwritten => exact .inl ⟨rfl, rfl⟩
  | published => exact .inr ⟨rfl, rfl⟩

theorem messageId_afterOpening (client : Client) (result : Except CloudError Unit) :
    (client.afterOpening result).messageId = client.messageId := by
  unfold afterOpening
  split <;> rfl

/-- A step that publishes takes the next number, and any other keeps the last one. -/
theorem Course.numbering (h : client.Course events client') : client.Numbering events client' := by
  cases h with
  | opening _ _ _ _ _ _ _ result hopening =>
    exact .inl ⟨hopening.filterMap_messageId?, messageId_afterOpening client result⟩
  | received _ _ _ _ _ hclient => exact .inl ⟨hclient.filterMap_messageId?, hclient.messageId_eq⟩
  | publication _ _ _ _ hpublication => exact hpublication.numbering
  | _ => exact .inl ⟨rfl, rfl⟩

/-- A step in which a sensor has failed publishes nothing. -/
theorem Course.filterMap_messageId?_of_fanError (h : client.Course events client')
    {error : FanError}
    (herror : ⟨.temperature, .error error⟩ ∈ events ∨ ⟨.fanSpeed, .error error⟩ ∈ events) :
    events.filterMap Event.messageId? = [] := by
  cases h with
  | publication _ _ _ _ hpublication =>
    cases hpublication with
    | noTemperature | noFanSpeed | unwritten => rfl
    | published => simp at herror
  | opening _ _ _ _ _ _ _ result hopening => exact hopening.filterMap_messageId?
  | received _ _ _ _ _ hclient => exact hclient.filterMap_messageId?
  | _ => rfl

/-- A turn goes on with the numbering where the one before has left it. -/
theorem Occurrence.Turns.numbering {occurrence : Occurrence}
    (h : occurrence.Turns client client') : client.Numbering occurrence.events client' := by
  cases h with
  | step _ _ hcourse => exact hcourse.numbering
  | configure _ _ hclient => exact .inl ⟨hclient.filterMap_messageId?, hclient.messageId_eq⟩
  | tick | other => exact .inl ⟨rfl, rfl⟩

end Numbering

theorem messageIds_append (history later : List Occurrence) :
    messageIds (history ++ later) = messageIds history ++ messageIds later := by
  simp [messageIds]

/-- The messages of a history are numbered in order, and the client holds the last number. -/
structure Counted (history : List Occurrence) (client : Client) : Prop where
  messageIds_eq : messageIds history = (List.range (messageIds history).length).map numberAt
  messageId_eq : client.messageId = lastNumber (messageIds history).length

theorem counted_new (identity : Identity) (period : Nat) : Counted [] (.new identity period) :=
  ⟨rfl, rfl⟩

/-- What happens next is counted on. -/
theorem Counted.turn {history : List Occurrence} {client client' : Client}
    {occurrence : Occurrence} (h : Counted history client)
    (hturn : occurrence.Turns client client') : Counted (history ++ [occurrence]) client' := by
  -- the messages of the occurrence come after those of the history
  have happend : messageIds (history ++ [occurrence]) =
      messageIds history ++ occurrence.events.filterMap Event.messageId? := by
    rw [messageIds_append]
    simp [messageIds]
  rcases hturn.numbering with ⟨hnone, hkept⟩ | ⟨hnext, htaken⟩
  · rw [hnone, List.append_nil] at happend
    exact ⟨happend ▸ h.messageIds_eq, happend ▸ hkept.trans h.messageId_eq⟩
  · -- the next number is the one for the place at the end of the list
    rw [h.messageId_eq, nextMessageId_lastNumber] at hnext htaken
    rw [hnext] at happend
    have hlength : (messageIds (history ++ [occurrence])).length =
        (messageIds history).length + 1 := by simp [happend]
    constructor
    · rw [hlength, List.range_succ, List.map_append, ← h.messageIds_eq, happend]
      rfl
    · rw [hlength, htaken]
      rfl

/-- The numbers that were used are the sequence from its start. -/
theorem Counted.eq_numberAt {history : List Occurrence} {client : Client}
    (h : Counted history client) {k : Nat} {id : UInt16}
    (hid : (messageIds history)[k]? = some id) : id = numberAt k := by
  -- the element of a range is its own place
  rw [h.messageIds_eq, List.getElem?_map] at hid
  obtain ⟨place, hplace, rfl⟩ := Option.map_eq_some_iff.1 hid
  obtain ⟨hlt, rfl⟩ := List.getElem?_eq_some_iff.1 hplace
  rw [List.getElem_range]

/-- The numbers that are used later go on where the earlier ones have ended. -/
theorem Counted.eq_numberAt_add {earlier later : List Occurrence} {client : Client}
    (h : Counted (earlier ++ later) client) {k : Nat} {id : UInt16}
    (hid : (messageIds later)[k]? = some id) :
    id = numberAt ((messageIds earlier).length + k) := by
  refine h.eq_numberAt ?_
  rw [messageIds_append, List.getElem?_append_right (Nat.le_add_right _ _),
    Nat.add_sub_cancel_left, hid]

/-- No number comes again before all others were used. -/
theorem Counted.nodup {history : List Occurrence} {client : Client} (h : Counted history client)
    (start : Nat) : (((messageIds history).drop start).take messageIdMax.toNat).Nodup := by
  refine List.pairwise_iff_getElem.2 fun i j hi hj hij hsame => ?_
  have hlt : j < messageIdMax.toNat := by
    rw [List.length_take] at hj
    omega
  rw [List.getElem_take, List.getElem_take, List.getElem_drop, List.getElem_drop] at hsame
  -- the two places are less than a round apart, so they are the same
  rw [h.eq_numberAt (List.getElem?_eq_getElem _), h.eq_numberAt (List.getElem?_eq_getElem _)]
    at hsame
  have hplace := numberAt_injOn (by omega) (by omega) hsame
  omega

/-- The numbers of the messages in a history. -/
structure Numbered (history : List Occurrence) : Prop where
  /-- The message with `k` messages before it has the number `k % messageIdMax + 1`. -/
  number : ∀ k id, (messageIds history)[k]? = some id → id.toNat = k % messageIdMax.toNat + 1
  /-- All numbers lie between one and `messageIdMax`. -/
  range : ∀ id ∈ messageIds history, 1 ≤ id.toNat ∧ id.toNat ≤ messageIdMax.toNat
  /-- As many messages in a row as there are numbers have different ones. -/
  distinct : ∀ start, (((messageIds history).drop start).take messageIdMax.toNat).Nodup
  /-- A step in which a sensor has failed publishes nothing and leaves the number for the next
  message. -/
  unused : ∀ {before after : Client} {events : List Event} {error : FanError},
    .step before events after ∈ history →
      ⟨.temperature, .error error⟩ ∈ events ∨ ⟨.fanSpeed, .error error⟩ ∈ events →
        events.filterMap Event.messageId? = [] ∧ after.messageId = before.messageId
  /-- Wherever a history is cut, be it where the session was lost or opened anew, the later messages
  are numbered on from the earlier ones. -/
  resumed : ∀ {earlier later : List Occurrence}, history = earlier ++ later →
    ∀ k id, (messageIds later)[k]? = some id →
      id.toNat = ((messageIds earlier).length + k) % messageIdMax.toNat + 1

/-- Messages are numbered in order in every run: whatever fails and however often the session is
opened anew, the numbers follow one another from one to `messageIdMax` and around, and the client
holds the last of them. -/
theorem session_numbered {σ : Type} (environment : Environment σ) (identity : Identity)
    (period : Nat) (peripherals : σ) (actions : List (Action σ)) :
    let session := (Session.start identity period peripherals).run environment actions
    Numbered session.history ∧
      session.client.messageId = lastNumber (messageIds session.history).length := by
  intro session
  have hcounted : Counted session.history session.client :=
    Session.run_induction environment identity period peripherals actions
      (counted_new identity period) fun _ _ _ _ h hturn => h.turn hturn
  refine ⟨⟨?_, ?_, hcounted.nodup, ?_, ?_⟩, hcounted.messageId_eq⟩
  · intro k id hid
    rw [hcounted.eq_numberAt hid, toNat_numberAt]
  · intro id hmem
    obtain ⟨k, hk, rfl⟩ := List.getElem_of_mem hmem
    rw [hcounted.eq_numberAt (List.getElem?_eq_getElem hk), toNat_numberAt]
    exact ⟨Nat.le_add_left 1 _, Nat.mod_lt k (by decide)⟩
  · intro before after events error hmem herror
    have hcourse := Session.course_of_mem_history environment identity period peripherals actions
      hmem
    have hnone := hcourse.filterMap_messageId?_of_fanError herror
    refine ⟨hnone, ?_⟩
    -- only a step that publishes changes the number
    rcases hcourse.numbering with ⟨-, hkept⟩ | ⟨hnext, -⟩
    · exact hkept
    · exact absurd (hnone.symm.trans hnext) nofun
  · intro earlier later hcut k id hid
    rw [hcut] at hcounted
    rw [hcounted.eq_numberAt_add hid, toNat_numberAt]

-- The first message cannot be delivered, then the network is lost, and the next session goes on.
example :
    let bench : Bench StillClock :=
      { log := #[]
        waited := 0
        bus := ⟨0xB0, none, none, [], [], none, 0⟩
        host := ⟨[], true⟩
        clock := ⟨1000⟩
        fan := ⟨[], 24500, [], 0, []⟩
        cloud := ⟨[], [(.publish, some .network)], [], false, []⟩ }
    let lost (value : Bool) : Action (Bench StillClock) :=
      .change fun bench => { bench with cloud := { bench.cloud with networkError := value } }
    let actions := [.step, .step, .step, .step, lost true, .step, lost false, .step, .step, .step,
      .step]
    let identity : Identity := ⟨"bridge", 443, "project", "region", "kits", "kit"⟩
    messageIds ((Session.start identity 10 bench).run Bench.environment actions).history =
      [1, 2] := by
  decide +kernel

end Client

end SecureKit

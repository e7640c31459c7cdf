import Mathlib.Data.List.Basic
import SecureKit.Proofs.Element.Calls
import SecureKit.Proofs.Element.Discovery
import SecureKit.Proofs.Element.Packet
import SecureKit.Proofs.Peripheral.Address

/-!
# The Search for a Device

A discovery is a sequence of probes, each a transaction at a place of its own, that ends with the
first one that succeeds. Nothing is found but what a device has answered in a whole, rightly counted
and undamaged response.

* `Probe.Sound` — what a probe does, and how what comes of it depends on the answers of the bus.
* `Search` — the probes of a search, and what has come of it.
* `discovered_discover` — a discovery makes the calls of such a search and reports its outcome.
* `Discovered.answers` — no revision gets into the table but from a response as it should be.
* `address_discover` — the device that was found stays addressed.
-/

namespace SecureKit

open Program

namespace Element

/-- A look for a device at one place. -/
structure Probe where
  /-- The address that is selected for it; none, if it is the one in use. -/
  place : Option UInt8
  /-- The calls of the transaction. -/
  events : List Event
  /-- What the transaction has left. -/
  exchange : Exchange Nat
  /-- What was made of it. -/
  result : Except DeviceError Revision

/-- The buffer for the response, which was cleared before the exchange. -/
def revisionBuffer (exchange : Exchange Nat) : Bytes :=
  (Bytes.zeros wordResponse).overlay 0 exchange.stored

@[simp]
theorem length_revisionBuffer (exchange : Exchange Nat) :
    (revisionBuffer exchange).length = wordResponse := by
  rw [revisionBuffer, Bytes.length_overlay, Bytes.length_zeros]

/-- An exchange has succeeded with a whole response, rightly counted and undamaged, that holds a
revision. -/
structure Answers (exchange : Exchange Nat) (revision : Revision) : Prop where
  received : ∃ length, exchange.outcome = .ok length ∧ wordResponse ≤ length
  counted : ((revisionBuffer exchange).headD 0).toNat = wordResponse
  checked : Checksum.holds (revisionBuffer exchange) = true
  revision_eq : (revisionBuffer exchange).window 1 4 = revision

/-- The calls of asking for the revision. -/
inductive Asks : List Event → Prop
  /-- The execution time is not known, and the device is left alone. -/
  | untimed (error : DeviceError) : Asks [⟨.executionTime Command.info.opcode, .error error⟩]
  /-- The device is woken, sent the packet and asked for the response, up to the first failure. -/
  | timed (millis : UInt32) {events : List Event}
      (hwoken : Woken (packetSteps revisionPacket (some wordResponse) millis) events) :
      Asks (⟨.executionTime Command.info.opcode, .ok millis⟩ :: events)

-- The packet is sent in a frame of eight bytes, and seven are asked for.
example (millis : UInt32) :
    packetSteps revisionPacket (some wordResponse) millis =
      [.send [0x07, 0x07, 0x30, 0x00, 0x00, 0x00, 0x03, 0x5D], .delay millis, .receive 7] := by
  have hframe : frameOf revisionPacket = [0x07, 0x07, 0x30, 0x00, 0x00, 0x00, 0x03, 0x5D] := by
    decide +kernel
  have hlength : responseLengthOf revisionPacket = 7 := by decide +kernel
  rw [packetSteps, hframe, hlength]
  rfl

namespace Probe

/-- All calls of a probe. -/
def trace (probe : Probe) : List Event :=
  (probe.place.map fun address => ⟨.select address, ()⟩).toList ++ probe.events

/-- A probe asks for the revision in one transaction, and all else follows from how its calls were
answered. -/
structure Sound (probe : Probe) : Prop where
  asks : Asks probe.events
  /-- The transaction fails with the earliest failure of its calls, and for no other reason. -/
  fault_eq : DeviceError.ofResult? probe.exchange.outcome = firstFault? probe.events
  /-- Without a failure it is what the bus has answered in the one call that asks for the
  response. -/
  answered : firstFault? probe.events = none →
    probe.events.filterMap Event.answered? = [probe.exchange]
  /-- The transaction stays at its place. -/
  selected : probe.events.filterMap Event.selected? = []
  result_eq_ok_iff : ∀ revision, probe.result = .ok revision ↔ Answers probe.exchange revision
  /-- A failure of the transaction is that of the probe. -/
  result_of_failed : ∀ error, probe.exchange.outcome = .error error → probe.result = .error error
  /-- A response that is short or wrongly counted is of no valid size. -/
  result_of_miscounted : ∀ length, probe.exchange.outcome = .ok length →
    length < wordResponse ∨ ((revisionBuffer probe.exchange).headD 0).toNat ≠ wordResponse →
      probe.result = .error .invalidSize
  /-- A response of the right size may be damaged. -/
  result_of_damaged : ∀ length, probe.exchange.outcome = .ok length → wordResponse ≤ length →
    ((revisionBuffer probe.exchange).headD 0).toNat = wordResponse →
      Checksum.holds (revisionBuffer probe.exchange) = false → probe.result = .error .rxCrcError

/-- The only address that a probe selects is that of its place. -/
theorem Sound.selected_trace {probe : Probe} (h : probe.Sound) :
    probe.trace.filterMap Event.selected? = probe.place.toList := by
  rw [trace, List.filterMap_append, h.selected, List.append_nil]
  cases probe.place <;> rfl

/-- A probe that succeeds has taken the revision from what the bus has answered in it. -/
theorem Sound.answered_trace {probe : Probe} (h : probe.Sound) {revision : Revision}
    (hresult : probe.result = .ok revision) :
    Answers probe.exchange revision ∧
      probe.trace.filterMap Event.answered? = [probe.exchange] := by
  have hanswers := (h.result_eq_ok_iff revision).1 hresult
  obtain ⟨length, hlength, -⟩ := hanswers.received
  have hfault : firstFault? probe.events = none := by
    rw [← h.fault_eq, hlength]
    rfl
  refine ⟨hanswers, ?_⟩
  rw [trace, List.filterMap_append, h.answered hfault]
  cases probe.place <;> rfl

end Probe

/-- The packet that asks for the revision is accepted, and there is room for the response. -/
theorem asks_of_handled {events : List Event} {exchange : Exchange Nat}
    (h : Handled revisionPacket (some wordResponse) events exchange) : Asks events := by
  have haccepted : packetFault? revisionPacket = none := by decide +kernel
  cases h with
  | refused hpacket => exact absurd (haccepted.symm.trans hpacket) nofun
  | untimed hpacket error => exact .untimed error
  | unfit hpacket hroom millis => exact absurd hroom (by decide +kernel)
  | forwarded hpacket hroom hwoken hstored => exact .timed _ hwoken

/-- The revision is taken from a whole response only, that is rightly counted and undamaged. -/
theorem revisionOf_eq_ok_iff {length : Nat} {response : Bytes} {revision : Revision} :
    revisionOf length response = .ok revision ↔
      response.length ≤ length ∧ (response.headD 0).toNat = response.length ∧
        Checksum.holds response = true ∧ response.window 1 4 = revision := by
  rw [revisionOf]
  by_cases hsize : length < response.length ∨ (response.headD 0).toNat ≠ response.length
  case pos =>
    rw [if_pos hsize]
    refine iff_of_false nofun ?_
    rintro ⟨hlength, hcount, -, -⟩
    exact hsize.elim (Nat.not_lt.2 hlength) (absurd hcount)
  case neg =>
    rw [not_or, Nat.not_lt, ne_eq, Decidable.not_not] at hsize
    rw [if_neg (by simpa using hsize)]
    -- the size is right, so the checksum decides
    cases Checksum.holds response with
    | false => exact iff_of_false nofun fun h => absurd h.2.2.1 Bool.false_ne_true
    | true =>
      exact ⟨fun h => ⟨hsize.1, hsize.2, rfl, Except.ok.inj h⟩, fun h => congrArg Except.ok h.2.2.2⟩

/-- What is made of the exchange of a probe. -/
def probed (exchange : Exchange Nat) : Except DeviceError Revision :=
  match exchange.outcome with
  | .error error => .error error
  | .ok length => revisionOf length ((Bytes.zeros wordResponse).overlay 0 exchange.stored)

theorem readRevision_eq :
    readRevision = talk revisionPacket wordResponse >>= fun exchange => return probed exchange := by
  rw [readRevision]
  congr 1
  funext exchange
  rw [probed]
  cases exchange.outcome <;> rfl

theorem probed_of_ok {exchange : Exchange Nat} {length : Nat} (h : exchange.outcome = .ok length) :
    probed exchange = revisionOf length (revisionBuffer exchange) := by
  rw [probed, h]
  rfl

theorem probed_of_error {exchange : Exchange Nat} {error : DeviceError}
    (h : exchange.outcome = .error error) : probed exchange = .error error := by
  rw [probed, h]

/-- A probe finds a revision in an answer and in nothing else. -/
theorem probed_eq_ok_iff (exchange : Exchange Nat) (revision : Revision) :
    probed exchange = .ok revision ↔ Answers exchange revision := by
  cases houtcome : exchange.outcome with
  | error error =>
    -- a transaction that has failed is no answer, whatever was stored before
    rw [probed_of_error houtcome]
    refine iff_of_false nofun fun h => ?_
    obtain ⟨length, hlength, -⟩ := h.received
    exact absurd (houtcome.symm.trans hlength) nofun
  | ok length =>
    rw [probed_of_ok houtcome, revisionOf_eq_ok_iff, length_revisionBuffer]
    constructor
    · rintro ⟨hlength, hcounted, hchecked, hrevision⟩
      exact ⟨⟨length, houtcome, hlength⟩, hcounted, hchecked, hrevision⟩
    · rintro ⟨⟨length', hlength', hle⟩, hcounted, hchecked, hrevision⟩
      obtain rfl : length = length' := Except.ok.inj (houtcome.symm.trans hlength')
      exact ⟨hle, hcounted, hchecked, hrevision⟩

/-- The response to a probe is looked at for its size first, and for its checksum then. -/
theorem probed_of_miscounted {exchange : Exchange Nat} {length : Nat}
    (h : exchange.outcome = .ok length)
    (hsize : length < wordResponse ∨
      ((revisionBuffer exchange).headD 0).toNat ≠ wordResponse) :
    probed exchange = .error .invalidSize := by
  rw [probed_of_ok h, revisionOf, length_revisionBuffer, if_pos hsize]

/-- A response of the right size is found to be damaged by its checksum. -/
theorem probed_of_damaged {exchange : Exchange Nat} {length : Nat}
    (h : exchange.outcome = .ok length) (hlength : wordResponse ≤ length)
    (hcounted : ((revisionBuffer exchange).headD 0).toNat = wordResponse)
    (hdamaged : Checksum.holds (revisionBuffer exchange) = false) :
    probed exchange = .error .rxCrcError := by
  have hsize : ¬(length < wordResponse ∨
      ((revisionBuffer exchange).headD 0).toNat ≠ wordResponse) := by
    rintro (hshort | hcount)
    · exact Nat.not_lt.2 hlength hshort
    · exact hcount hcounted
  rw [probed_of_ok h, revisionOf, length_revisionBuffer, if_neg hsize, hdamaged]
  rfl

/-- A transaction does not select an address. -/
theorem selected?_of_inTransaction {event : Event} (h : event.call.InTransaction) :
    event.selected? = none := by
  obtain ⟨call, reply⟩ := event
  cases call with
  | select address => exact h.elim
  | _ => rfl

/-- Reading the revision is a sound probe of the device in use. -/
theorem sound_readRevision (place : Option UInt8) :
    readRevision.Ensures fun events result =>
      ∃ exchange, Probe.Sound ⟨place, events, exchange, result⟩ := by
  -- with room for the response and an accepted packet only a call can fail
  have hroom : ∀ order, Order.ofPacket revisionPacket = .ok order →
      order.responseLength ≤ wordResponse := by
    intro order horder
    rw [Order.responseLength_eq horder]
    decide +kernel
  have haccepted : packetFault? revisionPacket = none := by decide +kernel
  have htalk := (((handled_talk revisionPacket wordResponse).and
    (reports_talk_of_fits hroom)).and (returns_talk revisionPacket wordResponse)).and
    (callsOnly_talk revisionPacket wordResponse).ensures
  rw [readRevision_eq, ensures_bind]
  refine htalk.mono ?_
  rintro events exchange ⟨⟨⟨hhandled, hreported, -⟩, hreturned⟩, hcalls⟩
  rw [haccepted] at hreported
  refine ⟨exchange, ?_⟩
  rw [List.append_nil]
  constructor
  case asks => exact asks_of_handled hhandled
  case fault_eq => exact hreported
  case answered => exact fun hnone => (hreturned (hreported.trans hnone)).1
  case selected =>
    exact List.filterMap_eq_nil_iff.2 fun event hevent =>
      selected?_of_inTransaction (hcalls event hevent)
  case result_eq_ok_iff => exact probed_eq_ok_iff exchange
  case result_of_failed => exact fun _ => probed_of_error
  case result_of_miscounted => exact fun _ => probed_of_miscounted
  case result_of_damaged => exact fun _ => probed_of_damaged

/-- The places at which a device is looked for: the address in use first, and then the others. -/
def places : List (Option UInt8) := none :: scanned.map some

/-- Probes along a route, up to the first that succeeds, and the result of the last of them. -/
structure Search (route : List (Option UInt8)) (probes : List Probe)
    (outcome : Except DeviceError Revision) : Prop where
  sound : ∀ probe ∈ probes, probe.Sound
  ordered : probes.map Probe.place <+: route
  failed : ∀ probe ∈ probes.dropLast, ∃ error, probe.result = .error error
  outcome_eq : ∃ probe, probes.getLast? = some probe ∧ probe.result = outcome
  /-- A search does not give up before the last place. -/
  exhausted : ∀ error, outcome = .error error → probes.map Probe.place = route

namespace Search

variable {probe : Probe} {rest : List (Option UInt8)}

/-- The first probe has succeeded, or there are no more places. -/
theorem single (hsound : probe.Sound) (hlast : ∀ error, probe.result = .error error → rest = []) :
    Search (probe.place :: rest) [probe] probe.result where
  sound := List.forall_mem_singleton.2 hsound
  ordered := List.prefix_append [probe.place] rest
  failed _ hmem := absurd hmem List.not_mem_nil
  outcome_eq := ⟨probe, rfl, rfl⟩
  exhausted error herror := by rw [hlast error herror]; rfl

/-- The first probe has failed, and the search goes on. -/
theorem cons {probes : List Probe} {outcome : Except DeviceError Revision} (hsound : probe.Sound)
    {error : DeviceError} (herror : probe.result = .error error) (h : Search rest probes outcome) :
    Search (probe.place :: rest) (probe :: probes) outcome where
  sound := List.forall_mem_cons.2 ⟨hsound, h.sound⟩
  ordered := (List.prefix_cons_inj probe.place).2 h.ordered
  failed := by
    obtain ⟨last, hlast, -⟩ := h.outcome_eq
    -- the first probe is not the last one, as the rest of the search has one of its own
    have hne : probes ≠ [] := by
      rintro rfl
      cases hlast
    rw [List.dropLast_cons_of_ne_nil hne]
    exact List.forall_mem_cons.2 ⟨⟨error, herror⟩, h.failed⟩
  outcome_eq := by
    obtain ⟨last, hlast, houtcome⟩ := h.outcome_eq
    exact ⟨last, by rw [List.getLast?_cons, hlast]; rfl, houtcome⟩
  exhausted error herror := congrArg (probe.place :: ·) (h.exhausted error herror)

end Search

/-- A scan goes on from a first probe. -/
theorem search_scan (addresses : List UInt8) {probe : Probe} (hsound : probe.Sound) :
    (scan addresses probe.result).Ensures fun events outcome =>
      ∃ probes, Search (probe.place :: addresses.map some) (probe :: probes) outcome ∧
        events = probes.flatMap Probe.trace := by
  induction addresses generalizing probe with
  | nil =>
    have hscan : scan [] probe.result = done probe.result := by
      cases probe.result <;> rfl
    rw [hscan]
    exact ⟨[], .single hsound fun _ _ => rfl, rfl⟩
  | cons address rest ih =>
    cases hresult : probe.result with
    | ok revision =>
      -- there is a revision already, and nothing more is probed
      refine ⟨[], hresult ▸ .single hsound fun error herror => ?_, rfl⟩
      exact absurd (hresult.symm.trans herror) nofun
    | error error =>
      intro reply
      show (readRevision >>= scan rest).Ensures _
      rw [ensures_bind]
      refine (sound_readRevision (some address)).mono ?_
      rintro events result ⟨exchange, hnext⟩
      -- the next probe is the first one of what is left of the scan
      refine (ih hnext).mono ?_
      rintro later outcome ⟨probes, hsearch, rfl⟩
      exact ⟨_ :: probes, hsearch.cons hsound hresult, rfl⟩

/-- The calls and the result of a discovery. -/
inductive Discovered : List Event → DeviceTable × Except DeviceError BusType → Prop
  /-- A device was found. It is recorded with the address that is told after its probe. -/
  | found {probes : List Probe} {revision : Revision}
    (hsearch : Search places probes (.ok revision)) (address : UInt8) :
    Discovered (probes.flatMap Probe.trace ++ [⟨.address, address⟩])
      ([foundDevice address revision], .ok .i2c)
  /-- No device has answered, and the error is that of the last probe. -/
  | missing {probes : List Probe} {error : DeviceError}
    (hsearch : Search places probes (.error error)) :
    Discovered (probes.flatMap Probe.trace) ([], .error error)

/-- Whatever the bus answers, a discovery is a search and reports its outcome. -/
theorem discovered_discover : discover.Ensures Discovered := by
  rw [discover, ensures_bind]
  refine (sound_readRevision none).mono ?_
  rintro events result ⟨exchange, hfirst⟩
  rw [ensures_bind]
  refine (search_scan scanned hfirst).mono ?_
  rintro later outcome ⟨probes, hsearch, rfl⟩
  cases outcome with
  | error error =>
    show Discovered (events ++ (probes.flatMap Probe.trace ++ [])) _
    rw [List.append_nil]
    exact .missing hsearch
  | ok revision =>
    intro address
    show Discovered (events ++ (probes.flatMap Probe.trace ++ [⟨.address, address⟩])) _
    rw [← List.append_assoc]
    exact .found hsearch address

/-- The device in the table has answered the last time that the bus was asked for a response, and
the revision was taken from this answer. -/
theorem Discovered.answers {events : List Event} {devices : DeviceTable}
    {outcome : Except DeviceError BusType} (h : Discovered events (devices, outcome)) :
    ∀ info ∈ devices, ∃ exchange,
      (events.filterMap Event.answered?).getLast? = some exchange ∧
        Answers exchange info.revision := by
  cases h with
  | missing hsearch => exact fun _ hmem => absurd hmem List.not_mem_nil
  | found hsearch address =>
    intro info hinfo
    obtain rfl := List.mem_singleton.1 hinfo
    obtain ⟨last, hlast, hresult⟩ := hsearch.outcome_eq
    obtain ⟨earlier, rfl⟩ := List.getLast?_eq_some_iff.1 hlast
    -- the last probe is the one that has succeeded, and telling the address answers nothing
    obtain ⟨hanswers, htrace⟩ := (hsearch.sound last (by simp)).answered_trace hresult
    refine ⟨last.exchange, ?_, hanswers⟩
    rw [List.filterMap_append, List.flatMap_append, List.filterMap_append, List.flatMap_singleton,
      htrace]
    exact (congrArg List.getLast? (List.append_nil _)).trans List.getLast?_concat

namespace Search

variable {probes : List Probe} {outcome : Except DeviceError Revision}

/-- A search selects the places it goes on to, and no other. -/
theorem selected_trace (h : Search places probes outcome) :
    (probes.flatMap Probe.trace).filterMap Event.selected? = probes.filterMap Probe.place := by
  rw [List.filterMap_flatMap, List.filterMap_eq_flatMap_toList]
  exact List.flatMap_congr fun probe hprobe => (h.sound probe hprobe).selected_trace

/-- The first place is the address in use, so one address is selected less than there are probes. -/
theorem filterMap_place (h : Search places probes outcome) :
    probes.filterMap Probe.place = scanned.take (probes.length - 1) := by
  obtain ⟨last, hlast, -⟩ := h.outcome_eq
  cases probes with
  | nil => cases hlast
  | cons first later =>
    -- the places are the address in use and then the first of those that are scanned
    have hplaces := List.prefix_iff_eq_take.1 h.ordered
    rw [List.length_map] at hplaces
    calc (first :: later).filterMap Probe.place
      _ = ((first :: later).map Probe.place).filterMap id := by rw [List.filterMap_map]; rfl
      _ = ((scanned.map some).take later.length).filterMap id := by rw [hplaces]; rfl
      _ = scanned.take later.length := by
          rw [← List.map_take, List.filterMap_map]
          exact List.filterMap_some

end Search

/-- The scan goes up, over the even addresses of its range. -/
theorem scanned_increasing : scanned.Pairwise (· < ·) := by decide

/-- The scan looks at every second address of its range. -/
theorem mem_scanned_iff (address : UInt8) :
    address ∈ scanned ↔
      scanStart ≤ address ∧ address < scanEnd ∧ (address - scanStart) % 2 = 0 := by
  revert address
  exact Bytes.forall_of_fin (by decide +kernel)

/-- A discovery leaves the device in use that it has recorded, or the last address if there is no
device. -/
theorem address_discover {σ : Type} {environment : Environment σ} {address : σ → UInt8}
    (h : environment.Addressed address) (state : σ) :
    (∀ info ∈ (discover.run environment state).1.1,
      info.address = address (discover.run environment state).2) ∧
    ((discover.run environment state).1.1 = [] →
      address (discover.run environment state).2 = scanEnd - 2) := by
  have hdiscovered := discovered_discover.run environment state
  have htold (earlier : List Event) (answer : UInt8) := h.told discover state earlier answer
  have hrun := h.run discover state
  generalize discover.run environment state = result at hdiscovered htold hrun ⊢
  generalize discover.trace environment state = events at hdiscovered htold hrun
  obtain ⟨⟨devices, outcome⟩, after⟩ := result
  cases hdiscovered with
  | found hsearch answer =>
    refine ⟨fun info hinfo => ?_, nofun⟩
    obtain rfl := List.mem_singleton.1 hinfo
    exact htold _ answer rfl
  | missing hsearch =>
    refine ⟨nofun, fun _ => ?_⟩
    -- all places were looked at, so the address that was selected last is the last of the scan
    have hlength := congrArg List.length (hsearch.exhausted _ rfl)
    rw [List.length_map] at hlength
    rw [hrun, hsearch.selected_trace, hsearch.filterMap_place, hlength]
    rfl

end Element

end SecureKit

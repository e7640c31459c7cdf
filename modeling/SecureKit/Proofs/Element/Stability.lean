import SecureKit.Proofs.Element.Search

/-!
# Repeated Discoveries

A discovery changes the address from which the next one starts, also if it fails. On a quiet bus
this makes no difference: a discovery comes to rest at the first address that answers, or at the
last of the scan if there is none, and from there the next one comes to rest at once, or fails at
all addresses again.

* `Environment.Steady` — peripherals with a bus on which nothing changes but the address in use.
* `Element.restAddress_idem` — where a discovery has come to rest, the next one does.
* `Environment.Steady.run_discover` — the result of a discovery and the address it leaves.
* `Bench.steady` — the simulated bus is quiet if it has no script.
* `Element.discover_repeated` — a second discovery finds what the first has found.
-/

namespace SecureKit

open Program

/-- The bus is quiet in some states of the peripherals, and stays so as long as nothing but the bus
and the delay timer is used. While it is, the exchange of a transaction depends on the address in
use alone. -/
structure Environment.Steady {σ : Type} (environment : Environment σ) (address : σ → UInt8)
    (quiet : σ → Prop) (conduct : UInt8 → Bytes → Nat → Exchange Nat) : Prop
    extends environment.Addressed address where
  stays : ∀ request state, request.ForElement → quiet state →
    quiet (environment.answer request state).2
  conducts : ∀ packet room state, quiet state →
    ((Element.talk packet room).run environment state).1 = conduct (address state) packet room

namespace Element

/-- The last address that is scanned. -/
def lastScanned : UInt8 := scanEnd - 2

/-- What a probe of an address gives, if the bus answers its transaction so. -/
def answers (conduct : UInt8 → Bytes → Nat → Exchange Nat) (address : UInt8) :
    Except DeviceError Revision :=
  probed (conduct address revisionPacket wordResponse)

/-- Whether a probe of an address gives a revision. -/
def responds (conduct : UInt8 → Bytes → Nat → Exchange Nat) (address : UInt8) : Bool :=
  (answers conduct address).isOk

/-- The address at which a discovery comes to rest: the first that responds, or the last of the
scan. -/
def restAddress (responds : UInt8 → Bool) (start : UInt8) : UInt8 :=
  ((start :: scanned).find? responds).getD lastScanned

/-- An address that responds is not left. -/
theorem restAddress_of_responds {responds : UInt8 → Bool} {start : UInt8}
    (h : responds start = true) : restAddress responds start = start := by
  rw [restAddress, List.find?_cons_of_pos h, Option.getD_some]

/-- If no address responds, the last one of the scan is left in use. -/
theorem restAddress_of_forall {responds : UInt8 → Bool} {start : UInt8}
    (h : ∀ address ∈ start :: scanned, ¬responds address = true) :
    restAddress responds start = lastScanned := by
  rw [restAddress, List.find?_eq_none.2 h, Option.getD_none]

/-- The next discovery comes to rest where it has started. -/
theorem restAddress_idem (responds : UInt8 → Bool) (start : UInt8) :
    restAddress responds (restAddress responds start) = restAddress responds start := by
  cases hfind : (start :: scanned).find? responds with
  | some found =>
    have hrest : restAddress responds start = found := by rw [restAddress, hfind, Option.getD_some]
    rw [hrest]
    exact restAddress_of_responds (List.find?_some hfind)
  | none =>
    -- the last address of the scan is one of those that have not responded
    have hsilent := List.find?_eq_none.1 hfind
    have hscanned := (List.forall_mem_cons.1 hsilent).2
    have hlast : lastScanned ∈ scanned := by decide
    rw [restAddress_of_forall hsilent]
    exact restAddress_of_forall (List.forall_mem_cons.2 ⟨hscanned _ hlast, hscanned⟩)

/-- The table and the result of a discovery that has come to rest at an address. -/
def settledAt (conduct : UInt8 → Bytes → Nat → Exchange Nat) (address : UInt8) :
    DeviceTable × Except DeviceError BusType :=
  match answers conduct address with
  | .error error => ([], .error error)
  | .ok revision => ([foundDevice address revision], .ok .i2c)

end Element

namespace Environment.Steady

open Element

variable {σ : Type} {environment : Environment σ} {address : σ → UInt8} {quiet : σ → Prop}
  {conduct : UInt8 → Bytes → Nat → Exchange Nat} {state : σ}

/-- A probe leaves the bus quiet and the address as it is. -/
theorem run_readRevision (h : environment.Steady address quiet conduct) (hquiet : quiet state) :
    ∃ after, readRevision.run environment state = (answers conduct (address state), after) ∧
      quiet after ∧ address after = address state := by
  refine ⟨(readRevision.run environment state).2, Prod.ext ?_ rfl,
    callsOnly_readRevision.keeps quiet h.stays hquiet, ?_⟩
  · show (readRevision.run environment state).1 = _
    rw [readRevision_eq, run_bind, h.conducts _ _ _ hquiet]
    rfl
  · obtain ⟨exchange, hsound⟩ := (sound_readRevision none).run environment state
    rw [h.run, hsound.selected]
    rfl

/-- A scan goes on from an address that was probed, up to the first one that gives a revision. -/
theorem run_scan (h : environment.Steady address quiet conduct) (addresses : List UInt8)
    (hquiet : quiet state) :
    ∃ after, (scan addresses (answers conduct (address state))).run environment state =
        (answers conduct (address after), after) ∧
      quiet after ∧
      address after = ((address state :: addresses).find? (responds conduct)).getD
        (addresses.getLastD (address state)) := by
  induction addresses generalizing state with
  | nil =>
    refine ⟨state, ?_, hquiet, ?_⟩
    · cases answers conduct (address state) <;> rfl
    · cases hresponds : responds conduct (address state) <;> simp [hresponds]
  | cons next rest ih =>
    cases hanswer : answers conduct (address state) with
    | ok revision =>
      have hresponds : responds conduct (address state) = true := by rw [responds, hanswer]; rfl
      refine ⟨state, by rw [hanswer]; rfl, hquiet, ?_⟩
      rw [List.find?_cons_of_pos hresponds, Option.getD_some]
    | error error =>
      have hresponds : ¬responds conduct (address state) = true := by
        rw [responds, hanswer]
        exact Bool.false_ne_true
      -- the next address is selected, and probed with the bus as quiet as before
      have hmoved : address (environment.answer (.select next) state).2 = next :=
        h.moves (.select next) state
      obtain ⟨middle, hprobe, hmiddle, hstayed⟩ :=
        h.run_readRevision (h.stays (.select next) state trivial hquiet)
      obtain ⟨after, hscan, hafter, hrest⟩ := ih hmiddle
      rw [hstayed, hmoved] at hscan hrest
      rw [hmoved] at hprobe
      refine ⟨after, ?_, hafter, ?_⟩
      · show (readRevision >>= scan rest).run environment _ = _
        rw [run_bind, hprobe]
        exact hscan
      · rw [List.find?_cons_of_neg hresponds, List.getLastD_cons]
        exact hrest

/-- A discovery comes to rest, and reports what it has found there. -/
theorem run_discover (h : environment.Steady address quiet conduct) (hquiet : quiet state) :
    ∃ after, discover.run environment state =
        (settledAt conduct (restAddress (responds conduct) (address state)), after) ∧
      quiet after ∧ address after = restAddress (responds conduct) (address state) := by
  obtain ⟨middle, hprobe, hmiddle, hstayed⟩ := h.run_readRevision hquiet
  obtain ⟨rested, hscan, hrested, hrest⟩ := h.run_scan scanned hmiddle
  rw [hstayed] at hscan hrest
  have haddress : address rested = restAddress (responds conduct) (address state) := hrest
  rw [discover, run_bind, hprobe, run_bind, hscan, ← haddress, settledAt]
  cases answers conduct (address rested) with
  | error error => exact ⟨rested, rfl, hrested, rfl⟩
  | ok revision =>
    refine ⟨(environment.answer .address rested).2, ?_, h.stays _ _ trivial hrested,
      h.moves .address rested⟩
    rw [← h.tells rested]
    rfl

/-- Where the address in use gives a revision, a discovery only probes that. -/
theorem trace_discover (h : environment.Steady address quiet conduct) (hquiet : quiet state)
    {revision : Revision} (hanswer : answers conduct (address state) = .ok revision) :
    discover.trace environment state =
      readRevision.trace environment state ++ [⟨.address, address state⟩] := by
  obtain ⟨middle, hprobe, -, hstayed⟩ := h.run_readRevision hquiet
  have hscan : scan scanned (.ok revision) = done (.ok revision) := rfl
  rw [discover, trace_bind, hprobe, hanswer, hscan, ← hstayed, ← h.tells middle]
  rfl

end Environment.Steady

namespace SimulatedBus

variable {bus : SimulatedBus}

/-- The bus has no script: no response is queued, and nothing is told to fail. -/
structure Unscripted (bus : SimulatedBus) : Prop where
  responses : bus.responses = []
  faults : bus.faults = []

/-- The bus with another address in use, and after another command. -/
def turned (bus : SimulatedBus) (address opcode : UInt8) : SimulatedBus :=
  { bus with address, lastOpcode := opcode }

theorem Unscripted.turned (h : bus.Unscripted) (address opcode : UInt8) :
    (bus.turned address opcode).Unscripted :=
  ⟨h.responses, h.faults⟩

/-- Without a script every operation succeeds and changes nothing. -/
theorem Unscripted.attempt (h : bus.Unscripted) (operation : Operation) :
    bus.attempt operation = (.ok (), bus) := by
  obtain ⟨address, present, revision, responses, faults, executionTimes, lastOpcode⟩ := bus
  obtain rfl : faults = [] := h.faults
  rfl

theorem Unscripted.wake_snd (h : bus.Unscripted) : bus.wake.2 = bus := by
  rw [wake, h.attempt]

/-- Without a script every frame is sent, and its command is kept in mind. -/
theorem Unscripted.send (h : bus.Unscripted) (frame : Bytes) :
    bus.send frame = (.ok (), bus.turned bus.address (frame.getD 2 0)) := by
  rw [SimulatedBus.send, h.attempt]
  rfl

theorem Unscripted.receive_snd (h : bus.Unscripted) (room : Nat) : (bus.receive room).2 = bus := by
  rw [receive, h.attempt]
  dsimp only
  rw [respond?, h.responses]
  dsimp only
  split_ifs
  · cases bus.revision <;> rfl
  · rfl

/-- What is received after a frame was sent. -/
def response (bus : SimulatedBus) (frame : Bytes) (room : Nat) : Exchange Nat :=
  let received := ((bus.send frame).2.receive room).1
  { received with stored := received.stored.take room }

/-- What is exchanged with the device at the address in use, if it wakes. -/
def exchange (bus : SimulatedBus) (frame : Bytes) (room : Nat) : Exchange Nat :=
  match bus.wake.1 with
  | .error error => .failed error
  | .ok () => bus.response frame room

/-- What a transaction at the address in use comes to, if nothing is told to fail. -/
def transact (bus : SimulatedBus) (packet : Bytes) (room : Nat) : Exchange Nat :=
  match Element.Order.ofPacket packet with
  | .error error => .failed error
  | .ok order =>
    match bus.executionTime order.command.opcode with
    | .error error => .failed error
    | .ok _ =>
      if room < order.responseLength then .failed .smallBuffer
      else bus.exchange order.frame order.responseLength

/-- The command before makes no difference to a transaction. -/
theorem Unscripted.transact_turned (h : bus.Unscripted) (address opcode opcode' : UInt8) :
    (bus.turned address opcode).transact = (bus.turned address opcode').transact := by
  have hexchange :
      (bus.turned address opcode).exchange = (bus.turned address opcode').exchange := by
    funext frame room
    rw [exchange, exchange, response, response, wake, wake, (h.turned _ _).attempt,
      (h.turned _ _).attempt, (h.turned _ _).send, (h.turned _ _).send]
    rfl
  funext packet room
  rw [transact, transact, hexchange]
  rfl

end SimulatedBus

namespace Bench

open Element

variable {κ : Type} [Clock κ] {bench : Bench κ}

/-- A call of the bus leaves one without a script as it is, but for the address and the command. -/
theorem turned_answer (h : bench.bus.Unscripted) {request : Call} (hrequest : request.ForElement) :
    ∃ address opcode,
      (environment.answer request bench).2.bus = bench.bus.turned address opcode := by
  have hsame {bus : SimulatedBus} (hbus : bus = bench.bus) :
      ∃ address opcode, bus = bench.bus.turned address opcode :=
    ⟨bench.bus.address, bench.bus.lastOpcode, hbus⟩
  cases request with
  | wake => exact hsame h.wake_snd
  | idle => exact hsame (congrArg Prod.snd (h.attempt .idle))
  | sleep => exact hsame (congrArg Prod.snd (h.attempt .sleep))
  | send frame => exact ⟨_, _, congrArg Prod.snd (h.send frame)⟩
  | receive room => exact hsame (h.receive_snd room)
  | select address => exact ⟨address, bench.bus.lastOpcode, rfl⟩
  | address | busType | executionTime | delay => exact hsame rfl
  | _ => exact hrequest.elim

/-- No call for the secure element gives the bus a script. -/
theorem unscripted_answer (request : Call) (bench : Bench κ) (hrequest : request.ForElement)
    (h : bench.bus.Unscripted) : (environment.answer request bench).2.bus.Unscripted := by
  obtain ⟨address, opcode, hbus⟩ := turned_answer h hrequest
  rw [hbus]
  exact h.turned address opcode

/-- On a bus without a script a frame is taken, and the response received. -/
theorem run_sendAnd (h : bench.bus.Unscripted) (frame : Bytes) (millis : UInt32) (room : Nat) :
    ((sendAnd frame millis (receiveInto room)).run environment bench).1 =
      bench.bus.response frame room := by
  have hsent : (environment.answer (.send frame) bench).1 = .ok () :=
    congrArg Prod.fst (h.send frame)
  rw [sendAnd, perform_eq, call_bind, run_call, hsent]
  rfl

/-- On a bus without a script a device that wakes takes the frame, responds and idles. -/
theorem run_awake (h : bench.bus.Unscripted) (frame : Bytes) (millis : UInt32) (room : Nat) :
    ((awake (sendAnd frame millis (receiveInto room))).run environment bench).1 =
      bench.bus.exchange frame room := by
  have hwoken : (environment.answer .wake bench).2.bus = bench.bus := h.wake_snd
  have hwake : (environment.answer .wake bench).1 = bench.bus.wake.1 := rfl
  rw [awake, perform_eq, call_bind, run_call, hwake, SimulatedBus.exchange]
  -- waking may change the rest of the bench, but not the bus
  generalize (environment.answer .wake bench).2 = woken at hwoken
  rw [← hwoken] at h ⊢
  cases woken.bus.wake.1 with
  | error error => rfl
  | ok =>
    dsimp only
    have hcalls := callsOnly_sendAnd frame millis (callsOnly_receiveInto room)
    have hafter := (hcalls.mono fun _ => Call.InTransaction.forElement).keeps
      (fun bench : Bench κ => bench.bus.Unscripted) unscripted_answer h
    generalize hrun : (sendAnd frame millis (receiveInto room)).run environment woken = sent
    rw [hrun] at hafter
    have hidled : (environment.answer .idle sent.2).1 = .ok () :=
      congrArg Prod.fst (hafter.attempt .idle)
    rw [done_bind, run_bind, hrun, perform_eq, call_bind, run_call, hidled, ← run_sendAnd h, hrun]
    exact sent.1.idled_ok

/-- On a bus without a script a transaction comes to its exchange, whatever was done before. -/
theorem run_talk (h : bench.bus.Unscripted) (packet : Bytes) (room : Nat) :
    ((talk packet room).run environment bench).1 = bench.bus.transact packet room := by
  rw [talk, SimulatedBus.transact]
  cases Order.ofPacket packet with
  | error error => rfl
  | ok order =>
    have htime : (environment.answer (.executionTime order.command.opcode) bench).1 =
        bench.bus.executionTime order.command.opcode := rfl
    have htimed : (environment.answer (.executionTime order.command.opcode) bench).2.bus =
        bench.bus := rfl
    dsimp only
    rw [perform_eq, call_bind, run_call, htime]
    generalize (environment.answer (.executionTime order.command.opcode) bench).2 = timed at htimed
    cases bench.bus.executionTime order.command.opcode with
    | error error => rfl
    | ok millis =>
      rw [← htimed] at h ⊢
      dsimp only
      rw [done_bind]
      dsimp only
      split_ifs
      · rfl
      · exact run_awake h _ _ _

/-- On the bench a bus without a script is quiet, at whatever address and after whatever command. -/
theorem steady {bus : SimulatedBus} (h : bus.Unscripted) :
    (environment (κ := κ)).Steady (fun bench => bench.bus.address)
      (fun bench => ∃ address opcode, bench.bus = bus.turned address opcode)
      (fun address => (bus.turned address 0).transact) where
  toAddressed := addressed
  stays request bench hrequest := by
    rintro ⟨address, opcode, hbus⟩
    have hscript : bench.bus.Unscripted := hbus ▸ h.turned address opcode
    obtain ⟨address', opcode', hanswer⟩ := turned_answer hscript hrequest
    rw [hbus] at hanswer
    exact ⟨address', opcode', hanswer⟩
  conducts packet room bench := by
    rintro ⟨address, opcode, hbus⟩
    have hscript : bench.bus.Unscripted := hbus ▸ h.turned address opcode
    have haddress : bench.bus.address = address := by rw [hbus]; rfl
    rw [run_talk hscript, haddress, hbus, h.transact_turned address opcode 0]

end Bench

namespace Element

/-- On a quiet bus a second discovery has the result of the first, and leaves the same table and the
same address in use. If a device was found, it is probed once and no address is selected. -/
theorem discover_repeated {σ : Type} {environment : Environment σ} {address : σ → UInt8}
    {quiet : σ → Prop} {conduct : UInt8 → Bytes → Nat → Exchange Nat}
    (h : environment.Steady address quiet conduct) (state : σ) (hquiet : quiet state) :
    let first := discover.run environment state
    let second := discover.run environment first.2
    second.1 = first.1 ∧ address second.2 = address first.2 ∧
      ∀ bus, first.1.2 = .ok bus →
        discover.trace environment first.2 =
          readRevision.trace environment first.2 ++ [⟨.address, address first.2⟩] ∧
        ∀ event ∈ discover.trace environment first.2, event.selected? = none := by
  obtain ⟨rested, hfirst, hrested, haddress⟩ := h.run_discover hquiet
  obtain ⟨after, hsecond, -, hafter⟩ := h.run_discover hrested
  -- the second discovery starts where the first has come to rest, and so comes to rest there
  rw [haddress, restAddress_idem, ← haddress] at hsecond hafter
  rw [← haddress] at hfirst
  intro first second
  have hstate : first.2 = rested := congrArg Prod.snd hfirst
  have hresult : first.1 = settledAt conduct (address rested) := congrArg Prod.fst hfirst
  have hrepeated : second = (settledAt conduct (address rested), after) := by
    rw [← hsecond, ← hstate]
  rw [hstate, hresult, hrepeated]
  refine ⟨rfl, hafter, fun bus hbus => ?_⟩
  cases hanswer : answers conduct (address rested) with
  | error error =>
    rw [settledAt, hanswer] at hbus
    cases hbus
  | ok revision =>
    have htrace := h.trace_discover hrested hanswer
    refine ⟨htrace, fun event hevent => ?_⟩
    rw [htrace] at hevent
    rcases List.mem_append.1 hevent with hprobe | htold
    · obtain ⟨exchange, hsound⟩ := (sound_readRevision none).run environment rested
      exact List.filterMap_eq_nil_iff.1 hsound.selected event hprobe
    · obtain rfl := List.mem_singleton.1 htold
      rfl

/-- A device is found by the scan, and then at once. -/
theorem discover_repeated_scanned :
    let bus : SimulatedBus := ⟨0xB0, some [0xC2], some [0x00, 0x00, 0x50, 0x00], [], [], none, 0⟩
    let bench : Bench StillClock :=
      ⟨#[], 0, bus, ⟨[], true⟩, ⟨1000⟩, ⟨[], 24500, [], 0, []⟩, ⟨[], [], [], false, []⟩⟩
    let first := discover.run Bench.environment bench
    let second := discover.run Bench.environment first.2
    second.1 = ([foundDevice 0xC2 #v[0x00, 0x00, 0x50, 0x00]], .ok .i2c) ∧
      second.2.bus.address = 0xC2 ∧
      ∀ event ∈ discover.trace Bench.environment first.2, event.selected? = none := by
  intro bus bench
  have hbus : bus.Unscripted := ⟨rfl, rfl⟩
  have hfirst : (discover.run Bench.environment bench).1 =
        ([foundDevice 0xC2 #v[0x00, 0x00, 0x50, 0x00]], .ok .i2c) ∧
      (discover.run Bench.environment bench).2.bus.address = 0xC2 := by
    decide +kernel
  have hrepeated := discover_repeated (Bench.steady hbus) bench ⟨0xB0, 0, rfl⟩
  generalize discover.run Bench.environment bench = first at hfirst hrepeated ⊢
  obtain ⟨hresult, haddress, hprobe⟩ := hrepeated
  have hfound : first.1.2 = .ok .i2c := congrArg Prod.snd hfirst.1
  exact ⟨hresult.trans hfirst.1, haddress.trans hfirst.2, (hprobe _ hfound).2⟩

end Element

end SecureKit

import SecureKit.Proofs.Element.Search
import SecureKit.Proofs.Protocol.Dialogue
import SecureKit.Proofs.Protocol.Effects

/-!
# The Device Table of the Engine

The engine knows at most one device, the one that the latest discovery has found, and a line that
asks for it is answered from the table that its own discovery has left.

* `Engine.discover_searched` — a discovery of the engine, whatever was known before.
* `Engine.Reported` — the answer to a line that asks for a device.
* `Engine.session_reporting` — the table and the answers in every run.
-/

namespace SecureKit

open Program

/-- A request makes a discovery if it asks for the device at an index. -/
theorem Request.Discovers.eq_discover {request : Request} (h : request.Discovers) :
    ∃ index rest, request = .board (.discover (some (index :: rest))) := by
  match request, h with
  | .board (.discover (some (index :: rest))), _ => exact ⟨index, rest, rfl⟩

/-- A revision always gives the name by which the host tools know the ECC devices. -/
theorem DeviceType.label_ofRevision (revision : Revision) :
    (ofRevision revision).label = "ECC108 " := by
  unfold ofRevision
  repeat' split
  all_goals rfl

/-- A device that was found is reported for the first index only. -/
theorem BoardAnswer.ofDevice_found (address : UInt8) (revision : Revision) (index : UInt8) :
    ofDevice [Element.foundDevice address revision] index =
      if index = 0 then ⟨"ECC108 TWI ", .ok [address]⟩ else refused .noDevice := by
  by_cases hindex : index = 0
  case pos =>
    subst hindex
    -- the refusals for unknown types and buses do not apply to a device that was found
    have htype : (Element.foundDevice address revision).deviceType ≠ .unknown :=
      DeviceType.ofRevision_ne_unknown revision
    have hbus : (Element.foundDevice address revision).busType ≠ .unknown := nofun
    have hlabel : (Element.foundDevice address revision).deviceType.label = "ECC108 " :=
      DeviceType.label_ofRevision revision
    rw [if_pos rfl, ofDevice]
    show (if _ then _ else _ : BoardAnswer) = _
    rw [if_neg htype, if_neg hbus, hlabel]
    rfl
  case neg =>
    have hnone : [Element.foundDevice address revision][index.toNat]? = none := by
      refine List.getElem?_eq_none (Nat.one_le_iff_ne_zero.2 fun hzero => hindex ?_)
      exact UInt8.toNat_inj.1 hzero
    rw [if_neg hindex, ofDevice, hnone]

namespace Engine

/-- A discovery of the engine is a search: whatever was in the device table before, it makes the
calls of probes at the places in order up to the first that succeeds, and leaves the device that was
found in the table and addressed; without one the table is empty, the error is that of the last
probe, and the last address stays in use. The revision in the table was taken from the last response
that was asked for, which was whole, rightly counted and undamaged. -/
theorem discover_searched {σ : Type} (environment : Environment σ) (peripherals : σ)
    (engine : Engine) :
    let events := engine.discover.trace environment peripherals
    let result := engine.discover.run environment peripherals
    (∃ outcome, Element.Discovered events (result.1.2.devices, outcome) ∧
      result.1.1 = outcome.map fun _ => ()) ∧
    result.1.2 = { engine with devices := result.1.2.devices } ∧
    (∀ info ∈ result.1.2.devices, ∃ exchange,
      (events.filterMap Event.answered?).getLast? = some exchange ∧
        Element.Answers exchange info.revision) ∧
    ∀ address : σ → UInt8, environment.Addressed address →
      (∀ info ∈ result.1.2.devices, info.address = address result.2) ∧
      (result.1.2.devices = [] → address result.2 = Element.scanEnd - 2) := by
  intro events result
  have hdiscovered := Element.discovered_discover.run environment peripherals
  have hevents : events = Element.discover.trace environment peripherals := by
    dsimp only [events]
    rw [discover, trace_bind]
    exact List.append_nil _
  -- the table is all that the engine keeps of a discovery
  have hresult : result =
      (((Element.discover.run environment peripherals).1.2.map fun _ => (),
          { engine with devices := (Element.discover.run environment peripherals).1.1 }),
        (Element.discover.run environment peripherals).2) := by
    dsimp only [result]
    rw [discover, run_bind]
    rfl
  rw [hevents, hresult]
  exact ⟨⟨_, hdiscovered, rfl⟩, rfl, hdiscovered.answers,
    fun _ h => Element.address_discover h peripherals⟩

/-- A line that asks for the device at an index looks for devices first. -/
theorem process_discover (engine : Engine) {line rest : Bytes} {index : UInt8}
    (h : Request.ofReceived line = .board (.discover (some (index :: rest)))) :
    engine.process line = (do
      let (devices, _) ← Element.discover
      let blank : Engine := { engine with devices, transmit := .blank }
      let response := blank.respondBoard (.ofDevice devices index)
      return (shown response, response.2)) := by
  rw [engine.process_board h, BoardCommand.run, bind_assoc]
  rfl

/-- To the peripherals and the device table, such a line is a discovery. -/
theorem run_process_discover {σ : Type} (environment : Environment σ) (peripherals : σ)
    (engine : Engine) {line rest : Bytes} {index : UInt8}
    (h : Request.ofReceived line = .board (.discover (some (index :: rest)))) :
    let processed := (engine.process line).run environment peripherals
    let discovered := Element.discover.run environment peripherals
    (engine.process line).trace environment peripherals =
        Element.discover.trace environment peripherals ∧
      processed.1.2.devices = discovered.1.1 ∧ processed.2 = discovered.2 := by
  rw [engine.process_discover h, trace_bind, run_bind]
  -- the response is made without a call
  dsimp only
  rw [pure_eq, run_done, trace_done, List.append_nil, devices_respondBoard]
  exact ⟨rfl, rfl, rfl⟩

/-- The answer to a line that asks for the device at an index, from the calls of its discovery and
the table after it. -/
inductive Reported (index : UInt8) : List Event → Element.DeviceTable → Bytes → Prop
  /-- A device was found and is asked for. The address in the answer is that in the table, and was
  told last of all. -/
  | found (earlier : List Event) (address : UInt8) (revision : Revision) (hindex : index = 0) :
    Reported index (earlier ++ [⟨.address, address⟩]) [Element.foundDevice address revision]
      (Bytes.ofText "ECC108 TWI 00(" ++ Hex.encode [address] ++ Bytes.ofText ")\n")
  /-- There is no device, or another one is asked for. -/
  | missing (events : List Event) (devices : Element.DeviceTable) (h : index ≠ 0 ∨ devices = []) :
    Reported index events devices (Bytes.ofText "C5()\n")

/-- The answer for a device shows its address. -/
theorem shown_found (engine : Engine) (address : UInt8) :
    shown (engine.respondBoard ⟨"ECC108 TWI ", .ok [address]⟩) =
      Bytes.ofText "ECC108 TWI 00(" ++ Hex.encode [address] ++ Bytes.ofText ")\n" := by
  have hlabel : Bytes.ofText "ECC108 TWI 00(" =
      Bytes.ofText "ECC108 TWI " ++ Bytes.ofText "00(" := by decide
  have hroom : (Bytes.ofText "ECC108 TWI ").length + Frame.framedLength 2 ≤ Frame.bufferSize := by
    decide
  rw [shown_respondBoard _ _ hroom, hlabel, List.append_assoc, List.append_assoc,
    ← List.append_assoc (Bytes.ofText "00("), ← Frame.render_success]
  rfl

/-- The answer without a device is its status. -/
theorem shown_noDevice (engine : Engine) :
    shown (engine.respondBoard (.refused .noDevice)) = Bytes.ofText "C5()\n" := by
  have hroom : 0 + Frame.framedLength 1 ≤ Frame.bufferSize := by decide
  rw [shown_respondBoard _ (.refused .noDevice) hroom]
  decide

/-- The answer to a line that asks for a device is from the table after its discovery. -/
theorem reported_process (engine : Engine) {line rest : Bytes} {index : UInt8}
    (h : Request.ofReceived line = .board (.discover (some (index :: rest)))) :
    (engine.process line).Ensures fun events result =>
      Reported index events result.2.devices result.1 := by
  rw [engine.process_discover h, ensures_bind]
  refine Element.discovered_discover.mono ?_
  rintro events result hdiscovered
  cases hdiscovered with
  | found hsearch address =>
    -- the table has one entry, so only the first index names a device
    dsimp only
    rw [pure_eq, ensures_done, List.append_nil, devices_respondBoard, BoardAnswer.ofDevice_found]
    by_cases hindex : index = 0
    · rw [if_pos hindex, shown_found]
      exact .found _ address _ hindex
    · rw [if_neg hindex, shown_noDevice]
      exact .missing _ _ (.inl hindex)
  | missing hsearch =>
    have hnone : BoardAnswer.ofDevice [] index = .refused .noDevice := rfl
    dsimp only
    rw [pure_eq, ensures_done, devices_respondBoard, hnone, shown_noDevice]
    exact .missing _ [] (.inr rfl)

/-- Carrying out a line from the queue is carrying it out with the kit lock taken, after which the
response is sent. -/
theorem poll_of_line (engine : Engine) {line : ReceivedLine} (hline : line.overflow = false)
    (waiting : List ReceivedLine) (capacity : Nat) :
    engine.poll ⟨line :: waiting, capacity⟩ = (do
      let (response, after) ← engine.process line.data
      let _ ← Report.send response
      return (true, { after with lock := engine.lock.arm kitHoldoff }, ⟨waiting, capacity⟩)) := by
  rw [poll_cons, respond, if_neg (by simp [hline]), dispatch_withLock, process]
  simp [shown]

/-- A discovery that was made. -/
structure Discovery where
  events : List Event
  /-- The device table after it. -/
  table : Element.DeviceTable
  outcome : Except DeviceError BusType

section Discovery

variable {σ : Type} (environment : Environment σ) (peripherals : σ)

/-- The discovery that is made with peripherals in a state. -/
def Discovery.made : Discovery where
  events := Element.discover.trace environment peripherals
  table := (Element.discover.run environment peripherals).1.1
  outcome := (Element.discover.run environment peripherals).1.2

/-- The discovery that a line asks for, if it does. -/
def lineDiscovery? (line : Bytes) : Option Discovery :=
  match Request.ofReceived line with
  | .board (.discover (some (_ :: _))) => some (.made environment peripherals)
  | _ => none

/-- What may happen to an engine with peripherals of state `σ`. -/
inductive Action (σ : Type) where
  | line (data : Bytes)
  /-- The engine looks into a queue. -/
  | poll (queue : LineQueue)
  | discover
  /-- Another address is selected, past the engine. -/
  | select (address : UInt8)
  /-- The peripherals change on their own. -/
  | change (change : σ → σ)

/-- The discovery that is made in an action, if one is. -/
def Action.discovery? : Action σ → Option Discovery
  | .line data => lineDiscovery? environment peripherals data
  | .poll ⟨[], _⟩ => none
  | .poll ⟨first :: _, _⟩ =>
    if first.overflow then none else lineDiscovery? environment peripherals first.data
  | .discover => some (.made environment peripherals)
  | .select _ | .change _ => none

/-- The engine and the peripherals after an action. -/
def next (engine : Engine) : Action σ → Engine × σ
  | .line data =>
    let result := (engine.process data).run environment peripherals
    (result.1.2, result.2)
  | .poll queue =>
    let result := (engine.poll queue).run environment peripherals
    (result.1.2.1, result.2)
  | .discover =>
    let result := engine.discover.run environment peripherals
    (result.1.2, result.2)
  | .select address => (engine, ((Element.select address).run environment peripherals).2)
  | .change change => (engine, change peripherals)

/-- An engine among its peripherals, with the discoveries that were made so far. -/
structure Session (σ : Type) where
  engine : Engine
  peripherals : σ
  /-- The discoveries, the latest last. -/
  discoveries : List Discovery

/-- The device table after the latest of the discoveries; empty, if there was none. -/
def latestTable (discoveries : List Discovery) : Element.DeviceTable :=
  (discoveries.getLast?.map Discovery.table).getD []

/-- The calls and the outcome of a discovery are those of a search. -/
def Discovery.Searched (discovery : Discovery) : Prop :=
  Element.Discovered discovery.events (discovery.table, discovery.outcome)

/-- A line changes the device table by a discovery only. -/
theorem devices_process_run (engine : Engine) (line : Bytes) :
    ((engine.process line).run environment peripherals).1.2.devices =
      ((lineDiscovery? environment peripherals line).map Discovery.table).getD engine.devices := by
  rw [lineDiscovery?]
  split
  next index rest hrequest =>
    exact (engine.run_process_discover environment peripherals hrequest).2.1
  next hrequest =>
    -- all other lines keep the table
    refine (engine.devices_process fun hdiscovers => ?_).run environment peripherals
    obtain ⟨index, rest, hline⟩ := hdiscovers.eq_discover
    exact hrequest index rest hline

/-- The device table is that of the discovery that is made, and kept if there is none. -/
theorem devices_next (engine : Engine) (action : Action σ) :
    (next environment peripherals engine action).1.devices =
      ((action.discovery? environment peripherals).map Discovery.table).getD engine.devices := by
  match action with
  | .line data => exact devices_process_run environment peripherals engine data
  | .poll ⟨[], _⟩ | .select _ | .change _ => rfl
  | .discover =>
    show (engine.discover.run environment peripherals).1.2.devices = _
    rw [discover, run_bind]
    rfl
  | .poll ⟨first :: waiting, capacity⟩ =>
    show ((engine.poll _).run environment peripherals).1.2.1.devices = _
    rw [Action.discovery?]
    cases hline : first.overflow with
    | true =>
      -- a line that was too long is not carried out
      rw [poll_cons, respond, hline, run_bind, run_bind]
      exact devices_respondStatus _ .rxOverflow
    | false =>
      rw [poll_of_line _ hline, run_bind, run_bind]
      exact devices_process_run environment peripherals engine first.data

variable {environment peripherals} in
theorem eq_made_of_mem_lineDiscovery? {line : Bytes} {discovery : Discovery}
    (h : discovery ∈ lineDiscovery? environment peripherals line) :
    discovery = .made environment peripherals := by
  rw [lineDiscovery?] at h
  split at h
  · exact (Option.some.inj h).symm
  · cases h

variable {environment peripherals} in
/-- The discovery of an action is made with the peripherals as they are. -/
theorem eq_made_of_mem_discovery? {action : Action σ} {discovery : Discovery}
    (h : discovery ∈ action.discovery? environment peripherals) :
    discovery = .made environment peripherals := by
  match action with
  | .line data => exact eq_made_of_mem_lineDiscovery? h
  | .poll ⟨first :: _, _⟩ =>
    rw [Action.discovery?] at h
    split at h
    · cases h
    · exact eq_made_of_mem_lineDiscovery? h
  | .discover => exact (Option.some.inj h).symm

end Discovery

namespace Session

variable {σ : Type}

def start (period : Nat) (peripherals : σ) : Session σ where
  engine := .new period
  peripherals := peripherals
  discoveries := []

def act (environment : Environment σ) (session : Session σ) (action : Action σ) : Session σ where
  engine := (next environment session.peripherals session.engine action).1
  peripherals := (next environment session.peripherals session.engine action).2
  discoveries :=
    session.discoveries ++ (action.discovery? environment session.peripherals).toList

def run (environment : Environment σ) (session : Session σ) (actions : List (Action σ)) :
    Session σ :=
  actions.foldl (act environment) session

/-- The device table is that of the latest discovery, and all discoveries were searches. -/
structure Current (session : Session σ) : Prop where
  devices_eq : session.engine.devices = latestTable session.discoveries
  searched : ∀ discovery ∈ session.discoveries, discovery.Searched

theorem current_start (period : Nat) (peripherals : σ) : (start period peripherals).Current where
  devices_eq := rfl
  searched _ h := absurd h List.not_mem_nil

/-- Every action keeps the table that of the latest discovery. -/
theorem Current.act {session : Session σ} (h : session.Current) (environment : Environment σ)
    (action : Action σ) : (session.act environment action).Current := by
  have hdevices := devices_next environment session.peripherals session.engine action
  constructor
  · refine hdevices.trans ?_
    -- a discovery that was made is the latest from now on
    dsimp only [Session.act]
    cases hdiscovery : action.discovery? environment session.peripherals with
    | none => simpa using h.devices_eq
    | some discovery => simp [latestTable]
  · intro discovery hmem
    rcases List.mem_append.1 hmem with hmem | hmem
    · exact h.searched discovery hmem
    · rw [eq_made_of_mem_discovery? (Option.mem_toList.1 hmem)]
      exact Element.discovered_discover.run environment session.peripherals

/-- A discovery leaves one device at most. -/
theorem Current.devices_single {session : Session σ} (h : session.Current) :
    session.engine.devices = [] ∨
      ∃ address revision, session.engine.devices = [Element.foundDevice address revision] := by
  rw [h.devices_eq, latestTable]
  cases hlast : session.discoveries.getLast? with
  | none => exact .inl rfl
  | some discovery =>
    obtain ⟨events, table, outcome⟩ := discovery
    have hsearched := h.searched _ (List.mem_of_getLast? hlast)
    cases hsearched with
    | found hsearch address => exact .inr ⟨address, _, rfl⟩
    | missing hsearch => exact .inl rfl

/-- In every run the table is that of the latest discovery. -/
theorem current_run (environment : Environment σ) (period : Nat) (peripherals : σ)
    (actions : List (Action σ)) : ((start period peripherals).run environment actions).Current :=
  List.foldlRecOn actions (act environment) (current_start period peripherals)
    fun _ h action _ => h.act environment action

end Session

/-- How an engine answers lines that ask for devices, and what it knows before. -/
structure Reporting {σ : Type} (environment : Environment σ) (session : Session σ) : Prop where
  /-- The device table is that of the latest discovery, all of which were searches. -/
  current : session.Current
  /-- There is at most one device in it, of the type that its revision says. -/
  single : session.engine.devices = [] ∨
    ∃ address revision, session.engine.devices = [Element.foundDevice address revision]
  /-- A line without an index is refused with no call. -/
  refused : ∀ line load, Request.ofReceived line = .board (.discover load) →
    load = none ∨ load = some [] →
    ∃ after, session.engine.process line = (return (Bytes.ofText "C3()\n", after)) ∧
      after.devices = session.engine.devices
  /-- A line with an index makes a discovery, and is answered with what it has found. -/
  reported : ∀ line index rest,
    Request.ofReceived line = .board (.discover (some (index :: rest))) →
    let events := (session.engine.process line).trace environment session.peripherals
    let result := (session.engine.process line).run environment session.peripherals
    let discovery := Discovery.made environment session.peripherals
    events = discovery.events ∧ result.1.2.devices = discovery.table ∧
      Reported index events result.1.2.devices result.1.1
  /-- The device that was found is still addressed after the line. -/
  addressed : ∀ line index rest,
    Request.ofReceived line = .board (.discover (some (index :: rest))) →
    ∀ address, environment.Addressed address →
    let result := (session.engine.process line).run environment session.peripherals
    ∀ info ∈ result.1.2.devices, info.address = address result.2
  /-- A line from the queue is answered in the same way. -/
  polled : ∀ line waiting capacity, line.overflow = false →
    session.engine.poll ⟨line :: waiting, capacity⟩ = (do
      let (response, after) ← session.engine.process line.data
      let _ ← Report.send response
      return (true, { after with lock := session.engine.lock.arm kitHoldoff }, ⟨waiting, capacity⟩))

/-- In every run the device table is that of the latest discovery, and a line that asks for a device
is answered with what it has found. -/
theorem session_reporting {σ : Type} (environment : Environment σ) (period : Nat) (peripherals : σ)
    (actions : List (Action σ)) :
    Reporting environment ((Session.start period peripherals).run environment actions) := by
  have hcurrent := Session.current_run environment period peripherals actions
  generalize (Session.start period peripherals).run environment actions = session at hcurrent
  constructor
  case current => exact hcurrent
  case single => exact hcurrent.devices_single
  case refused =>
    intro line load hline hload
    have hrefusal : (Request.ofReceived line).refusal? = some (.kit .invalidParams) := by
      rw [hline]
      rcases hload with rfl | rfl <;> rfl
    obtain ⟨after, hprocess, hdevices, -⟩ := session.engine.process_of_refusal? hrefusal
    exact ⟨after, hprocess.trans (congrArg (fun text => done (text, after)) (by decide)), hdevices⟩
  case reported =>
    intro line index rest hline events result discovery
    obtain ⟨hevents, hdevices, -⟩ :=
      session.engine.run_process_discover environment session.peripherals hline
    exact ⟨hevents, hdevices,
      (session.engine.reported_process hline).run environment session.peripherals⟩
  case addressed =>
    intro line index rest hline address haddressed result
    obtain ⟨-, hdevices, hperipherals⟩ :=
      session.engine.run_process_discover environment session.peripherals hline
    dsimp only [result]
    rw [hdevices, hperipherals]
    exact (Element.address_discover haddressed session.peripherals).1
  case polled =>
    exact fun line waiting capacity hline => session.engine.poll_of_line hline waiting capacity

-- A device at another address than the one in use is found there, and reported at index zero only.
example :
    let bench : Bench StillClock :=
      { log := #[]
        waited := 0
        bus := ⟨0xB0, some [0xC2], some [0x00, 0x00, 0x60, 0x02], [], [], none, 0⟩
        host := ⟨[], true⟩
        clock := ⟨1000⟩
        fan := ⟨[], 24500, [], 0, []⟩
        cloud := ⟨[], [], [], false, []⟩ }
    let response (line : String) :=
      (((Engine.new 10).process (Bytes.ofText line)).run Bench.environment bench).1.1
    response "b:d(00)" = Bytes.ofText "ECC108 TWI 00(C2)\n" ∧
      response "b:d(01)" = Bytes.ofText "C5()\n" := by
  decide +kernel

end Engine

end SecureKit

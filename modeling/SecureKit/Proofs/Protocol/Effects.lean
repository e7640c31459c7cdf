import SecureKit.Proofs.Protocol.Dispatch
import SecureKit.Proofs.Protocol.Response
import SecureKit.Proofs.Protocol.Status

/-!
# The Effects of Lines

A line has no effect but those that its request asks for, and none at all if the request is refused.
All refusals are made from the line alone, before the first call.

* `Request.refusal?` — why a request is refused.
* `Engine.process_of_refusal?` — a refused line is answered with a status and nothing else happens.
* `Engine.status_of_accepted` — a line that is not refused does not show the code of a refusal.
* `Engine.process_framed` — the effects of every line.
-/

namespace SecureKit

open Program

/-- The date to which an event sets the clock, if it does. -/
def Event.clockSet? : Event → Option DateTime
  | ⟨.setClock date, _⟩ => some date
  | _ => none

/-- The check that an application load does not pass, if there is one: it must hold an opcode, which
is that of setting the clock, and a date. -/
def applicationRefusal? : Bytes → Option Failure
  | [] => some (.device .badParam)
  | opcode :: record =>
    if opcode = setTimeOpcode ∧ (DateTime.ofPacked? record).isSome then none
    else some (.device .parseError)

/-- The check that a board command does not pass, if there is one. -/
def BoardCommand.refusal? : BoardCommand → Option Failure
  | version | unknown => some (.kit .unknownCommand)
  | application none | firmware none | firmware (some []) | discover none | discover (some []) =>
    some (.kit .invalidParams)
  | application (some load) => applicationRefusal? load
  | firmware (some (index :: _)) =>
    if (FirmwarePart.at? index).isSome then none else some (.kit .invalidParams)
  | discover (some (_ :: _)) => none

/-- The check that a request does not pass, if there is one. -/
def Request.refusal? : Request → Option Failure
  | device command => command.refusal?
  | board command => command.refusal?
  | unknown => some (.kit .unknownCommand)

/-- The codes with which requests are refused. -/
def Failure.requestCodes : List UInt8 := DeviceError.parseError.code :: refusalCodes

/-- A command for the board is refused with a code for requests. -/
theorem BoardCommand.code_mem_of_refusal? {command : BoardCommand} {failure : Failure}
    (h : command.refusal? = some failure) : failure.code ∈ Failure.requestCodes := by
  match command with
  | version | unknown | application none | firmware none | firmware (some []) | discover none
  | discover (some []) | application (some []) =>
    cases h
    decide
  | application (some (opcode :: record)) =>
    rw [refusal?, applicationRefusal?] at h
    split_ifs at h
    cases h
    decide
  | firmware (some (index :: _)) =>
    rw [refusal?] at h
    split_ifs at h
    cases h
    decide
  | discover (some (_ :: _)) => cases h

/-- A request is refused with one of the codes for it. -/
theorem Request.code_mem_of_refusal? {request : Request} {failure : Failure}
    (h : request.refusal? = some failure) : failure.code ∈ Failure.requestCodes := by
  cases request with
  | device command => exact List.mem_cons_of_mem _ (command.code_mem_of_refusal? h)
  | board command => exact command.code_mem_of_refusal? h
  | unknown => cases h; decide

/-- A command for the bus that is refused makes no call. -/
theorem PhysicalCommand.run_of_refusal? {command : PhysicalCommand} {failure : Failure}
    (h : command.refusal? = some failure) : command.run = return ⟨[], .error failure⟩ := by
  match command with
  | unknown | send none | receive none | receive (some []) | select (some []) =>
    cases h
    rfl
  | send (some packet) =>
    -- the packet is checked before the execution time is looked up
    obtain ⟨error, herror, rfl⟩ := Option.map_eq_some_iff.1 h
    rw [run, Element.send_of_packetFault? herror]
    rfl
  | missing | wake | receive (some (_ :: _)) | select none | select (some (_ :: _)) => cases h

/-- A device command that is refused makes no call. -/
theorem DeviceCommand.run_of_refusal? {command : DeviceCommand} {failure : Failure}
    (h : command.refusal? = some failure) : command.run = return ⟨[], .error failure⟩ := by
  match command with
  | unknown | talk none | autoWrap none =>
    cases h
    rfl
  | talk (some packet) =>
    obtain ⟨error, herror, rfl⟩ := Option.map_eq_some_iff.1 h
    rw [run, Element.talk_of_packetFault? herror]
    rfl
  | physical command => exact command.run_of_refusal? h
  | empty | wake | sleep | idle | autoWrap (some _) => cases h

/-- An application command that is refused makes no call. -/
theorem runApplication_of_refusal? {load : Bytes} {failure : Failure}
    (h : applicationRefusal? load = some failure) :
    ∃ error, failure = .device error ∧ runApplication load = return .error error := by
  cases load with
  | nil => exact ⟨.badParam, (Option.some.inj h).symm, rfl⟩
  | cons opcode record =>
    rw [applicationRefusal?] at h
    split_ifs at h with haccepted
    refine ⟨.parseError, (Option.some.inj h).symm, ?_⟩
    rw [runApplication]
    split
    · next hopcode =>
      -- the opcode is right, so it is the record that is none of a date
      split
      · rfl
      · next date hdate => exact absurd ⟨hopcode, by rw [hdate]; rfl⟩ haccepted
    · rfl

/-- A board command that is refused makes no call and keeps the device table. -/
theorem BoardCommand.run_of_refusal? {command : BoardCommand} {failure : Failure}
    (h : command.refusal? = some failure) (devices : Element.DeviceTable) :
    command.run devices = return (⟨"", .error failure⟩, devices) := by
  match command with
  | version | unknown | application none | firmware none | firmware (some []) | discover none
  | discover (some []) =>
    cases h
    rfl
  | application (some load) =>
    obtain ⟨error, rfl, hrun⟩ := runApplication_of_refusal? h
    rw [run, hrun]
    rfl
  | firmware (some (index :: _)) =>
    rw [refusal?] at h
    split_ifs at h with hpart
    cases h
    rw [run, BoardAnswer.ofFirmware, Option.not_isSome_iff_eq_none.1 hpart]
    rfl
  | discover (some (_ :: _)) => cases h

/-- A load that is not refused sets the clock. -/
theorem runApplication_of_accepted {load : Bytes} (h : applicationRefusal? load = none) :
    ∃ date, (Request.board (.application (some load))).clock? = some date ∧
      runApplication load = (do perform (.setClock date); return .ok ()) := by
  cases load with
  | nil => cases h
  | cons opcode record =>
    rw [applicationRefusal?] at h
    split_ifs at h with haccepted
    obtain ⟨date, hdate⟩ := Option.isSome_iff_exists.1 haccepted.2
    refine ⟨date, (if_pos haccepted.1).trans hdate, ?_⟩
    rw [runApplication, if_pos haccepted.1, hdate]

/-- A device is reported with success or is not there. -/
theorem BoardAnswer.status_ofDevice (devices : Element.DeviceTable) (index : UInt8) :
    (ofDevice devices index).status = KitStatus.success.code ∨
      (ofDevice devices index).status = KitStatus.noDevice.code := by
  rw [ofDevice]
  split
  · exact .inr rfl
  · split_ifs with hunknown hbus
    · exact .inr rfl
    · exact .inl rfl
    · exact .inl rfl

/-- A board command that is not refused succeeds, or finds no device to report. -/
theorem BoardCommand.status_of_accepted {command : BoardCommand} (h : command.refusal? = none)
    (devices : Element.DeviceTable) :
    (command.run devices).Ensures fun _ result =>
      result.1.status = KitStatus.success.code ∨ result.1.status = KitStatus.noDevice.code := by
  match command with
  | version | unknown | application none | firmware none | firmware (some []) | discover none
  | discover (some []) => cases h
  | application (some load) =>
    obtain ⟨date, -, hrun⟩ := runApplication_of_accepted h
    rw [run, hrun]
    exact fun _ => .inl rfl
  | firmware (some (index :: _)) =>
    rw [refusal?] at h
    split_ifs at h with hpart
    obtain ⟨part, hpart⟩ := Option.isSome_iff_exists.1 hpart
    rw [run, BoardAnswer.ofFirmware, hpart]
    exact .inl rfl
  | discover (some (index :: _)) =>
    rw [run, ensures_bind]
    refine ensures_of_forall fun _ result => ?_
    exact BoardAnswer.status_ofDevice result.1 index

/-- The device table is kept by all board commands but those that look for devices. -/
theorem BoardCommand.devices_run (devices : Element.DeviceTable) {command : BoardCommand}
    (h : ¬(Request.board command).Discovers) :
    (command.run devices).Ensures fun _ result => result.2 = devices := by
  match command with
  | version | unknown | application none | firmware none | firmware (some []) | discover none
  | discover (some []) | firmware (some (_ :: _)) => rfl
  | application (some load) =>
    rw [run, ensures_bind]
    refine ensures_of_forall fun _ outcome => ?_
    cases outcome <;> rfl
  | discover (some (_ :: _)) => exact absurd trivial h

/-- The status that a response shows: the two digits in front of the parenthesis. -/
def Frame.shownStatus (response : Bytes) : UInt8 :=
  let front := response.takeWhile (· ≠ opening)
  (Hex.decode (front.drop (front.length - Hex.digitsPerByte))).headD 0

/-- The status of a frame is shown, with any label that has no parenthesis. -/
theorem Frame.shownStatus_render {label : Bytes} (hlabel : opening ∉ label) (status : UInt8)
    (payload : Bytes) : shownStatus (label ++ render status payload) = status := by
  have hdigits : opening ∉ Hex.encode [status] := fun h =>
    (isPlain_of_isDigit _ ((Hex.isText_encode [status]).isDigit _ h)).1 rfl
  have hfront : (label ++ render status payload).takeWhile (· ≠ opening) =
      label ++ Hex.encode [status] := by
    have hsplit : label ++ render status payload =
        (label ++ Hex.encode [status]) ++ opening :: (Hex.encode payload ++
          [closing, terminator]) := by
      simp [render]
    rw [hsplit, List.takeWhile_append_of_pos, List.takeWhile_cons_of_neg (by simp),
      List.append_nil]
    intro c hc
    have hne : c ≠ opening := by
      rintro rfl
      exact (List.mem_append.1 hc).elim hlabel hdigits
    simpa using hne
  rw [shownStatus, hfront]
  have hlength : (label ++ Hex.encode [status]).length - Hex.digitsPerByte = label.length := by
    simp [Hex.digitsPerByte]
  rw [hlength, List.drop_left, Hex.decode_encode]
  rfl

namespace Engine

/-- What a line does to the kit, from its request. -/
structure Framed (request : Request) (engine after : Engine) (events : List Event) : Prop where
  /-- The kit lock is kept. -/
  lock_eq : after.lock = engine.lock
  /-- All calls are those of the request. -/
  allows : ∀ event ∈ events, request.Allows event.call
  /-- A request to address a device makes the call for it and no other. -/
  selects : ∀ address, request.Selects address → events = [⟨.select address, ()⟩]
  /-- The clock is set once if the request gives a date, and not at all otherwise. -/
  clock_eq : events.filterMap Event.clockSet? = request.clock?.toList
  /-- The device table is kept, but for a search. -/
  devices_eq : ¬request.Discovers → after.devices = engine.devices

theorem lock_process (engine : Engine) (line : Bytes) :
    (engine.process line).Ensures fun _ result => result.2.lock = engine.lock := by
  rw [process, ensures_bind]
  exact (engine.lock_dispatch line).mono fun _ _ h => h

/-- A line makes no calls but those that its request allows. -/
theorem callsOnly_process (engine : Engine) (line : Bytes) :
    (engine.process line).CallsOnly (Request.ofReceived line).Allows :=
  (engine.callsOnly_dispatch line).bind fun _ => trivial

/-- A line that makes no discovery keeps the device table. -/
theorem devices_process (engine : Engine) {line : Bytes}
    (h : ¬(Request.ofReceived line).Discovers) :
    (engine.process line).Ensures fun _ result => result.2.devices = engine.devices := by
  cases hrequest : Request.ofReceived line with
  | device command =>
    rw [engine.process_device hrequest, ensures_bind]
    exact ensures_of_forall fun _ answer => devices_respondDevice _ answer
  | board command =>
    rw [hrequest] at h
    rw [engine.process_board hrequest, ensures_bind]
    refine (command.devices_run engine.devices h).mono fun _ result hdevices => ?_
    exact (devices_respondBoard _ result.1).trans hdevices
  | unknown =>
    rw [engine.process_unknown hrequest]
    dsimp only
    rw [pure_eq, ensures_done, devices_respondStatus]

section Process

variable {σ : Type} (environment : Environment σ) (state : σ) (engine : Engine)

/-- A line that selects an address makes this one call. -/
theorem trace_of_selects {line : Bytes} {address : UInt8}
    (h : (Request.ofReceived line).Selects address) :
    (engine.process line).trace environment state = [⟨.select address, ()⟩] := by
  obtain ⟨rest, hrequest⟩ := h
  rw [engine.process_device hrequest, trace_bind, pure_eq, trace_done, List.append_nil]
  rfl

/-- The clock is set to the date of the request, once. -/
theorem clockSet?_process (line : Bytes) :
    ((engine.process line).trace environment state).filterMap Event.clockSet? =
      (Request.ofReceived line).clock?.toList := by
  cases hclock : (Request.ofReceived line).clock? with
  | none =>
    -- a call that sets the clock is not allowed
    have hcalls := (engine.callsOnly_process line).of_mem_trace environment state
    refine List.filterMap_eq_nil_iff.2 fun event hevent => ?_
    have hallowed := hcalls event hevent
    obtain ⟨call, reply⟩ := event
    cases call with
    | setClock date => exact absurd (hclock.symm.trans hallowed) nofun
    | _ => rfl
  | some date =>
    -- only the load of an application command gives a date, and then it is accepted
    match hrequest : Request.ofReceived line with
    | .board (.application (some load)) =>
      rw [hrequest] at hclock
      have haccepted : applicationRefusal? load = none := by
        cases load with
        | nil => cases hclock
        | cons opcode record =>
          rw [Request.clock?] at hclock
          split_ifs at hclock with hopcode
          exact if_pos ⟨hopcode, by rw [hclock]; rfl⟩
      obtain ⟨date', hdate, hrun⟩ := runApplication_of_accepted haccepted
      obtain rfl := Option.some.inj (hclock.symm.trans hdate)
      rw [engine.process_board hrequest, BoardCommand.run, hrun]
      rfl
    | .device _ | .unknown | .board (.application none) | .board .version | .board (.firmware _)
    | .board (.discover _) | .board .unknown =>
      rw [hrequest] at hclock
      cases hclock

/-- Nothing is changed by a line but what its request is about. -/
theorem framed_process (line : Bytes) :
    Framed (Request.ofReceived line) engine ((engine.process line).run environment state).1.2
      ((engine.process line).trace environment state) where
  lock_eq := (engine.lock_process line).run environment state
  allows := (engine.callsOnly_process line).of_mem_trace environment state
  selects := fun _ => engine.trace_of_selects environment state
  clock_eq := engine.clockSet?_process environment state line
  devices_eq := fun h => (engine.devices_process h).run environment state

end Process

/-- A line that is refused is answered with the code of it, and nothing else happens. -/
theorem process_of_refusal? (engine : Engine) {line : Bytes} {failure : Failure}
    (h : (Request.ofReceived line).refusal? = some failure) :
    ∃ after, engine.process line = (return (Frame.render failure.code [], after)) ∧
      after.devices = engine.devices ∧ after.lock = engine.lock := by
  cases hrequest : Request.ofReceived line with
  | device command =>
    rw [hrequest] at h
    rw [engine.process_device hrequest, DeviceCommand.run_of_refusal? h, pure_eq, done_bind]
    dsimp only
    rw [shown_respondDevice]
    exact ⟨_, rfl, devices_respondDevice _ _, lock_respondDevice _ _⟩
  | board command =>
    rw [hrequest] at h
    rw [engine.process_board hrequest, BoardCommand.run_of_refusal? h, pure_eq, done_bind]
    have hroom : 0 + Frame.framedLength 1 ≤ Frame.bufferSize := by decide
    dsimp only
    rw [shown_respondBoard _ ⟨"", .error failure⟩ hroom]
    exact ⟨_, rfl, devices_respondBoard _ _, lock_respondBoard _ _⟩
  | unknown =>
    rw [hrequest] at h
    cases h
    rw [engine.process_unknown hrequest]
    dsimp only
    rw [shown_respondStatus]
    exact ⟨_, rfl, devices_respondStatus _ _, lock_respondStatus _ _⟩

/-- A line that is not refused is answered with none of the codes of refusals, unless a call has
failed. -/
theorem status_of_accepted (engine : Engine) {line : Bytes}
    (h : (Request.ofReceived line).refusal? = none) :
    (engine.process line).Ensures fun events result =>
      Element.firstFault? events = none →
        Frame.shownStatus result.1 ∉ Failure.requestCodes := by
  cases hrequest : Request.ofReceived line with
  | device command =>
    rw [hrequest] at h
    rw [engine.process_device hrequest, ensures_bind]
    refine Ensures.mono command.answers_run ?_
    rintro events answer ⟨hfailure, -⟩
    rw [pure_eq, ensures_done, List.append_nil]
    intro hfault
    -- no check has failed and no call has, so there is nothing to report
    have hnone : answer.failure? = none := by
      rw [hfailure, hfault, Option.map_none, Option.or_none]
      exact h
    dsimp only
    rw [shown_respondDevice, ← List.nil_append (Frame.render _ _),
      Frame.shownStatus_render List.not_mem_nil, answer.status_eq, hnone]
    decide
  | board command =>
    rw [hrequest] at h
    rw [engine.process_board hrequest, ensures_bind]
    refine ((command.status_of_accepted h _).and (command.fits_run _)).mono ?_
    rintro events ⟨answer, devices⟩ ⟨hstatus, hfits⟩ -
    have hplain : Frame.opening ∉ Bytes.ofText answer.label := fun hmem =>
      (hfits.isLabel.isPlain _ hmem).1 rfl
    have hshort : answer.payload.length < 256 := Nat.lt_of_le_of_lt hfits.length_le (by decide)
    have hroom := Frame.add_framedLength_le hfits.isLabel.length_le hshort
    dsimp only at hstatus ⊢
    rw [shown_respondBoard _ _ hroom, Frame.shownStatus_render hplain]
    -- neither of the two statuses is the code of a refusal
    rcases hstatus with hstatus | hstatus
    · rw [hstatus]
      decide
    · rw [hstatus]
      decide
  | unknown =>
    rw [hrequest] at h
    cases h

/-- A line has the effects of its request and no others. A line that is refused has none: it makes
no call, keeps the peripherals, the device table and the kit lock, and is answered with nothing but
the code of the refusal. Where no call has failed, the codes of refusals are shown for lines that
were refused and for no others. -/
theorem process_framed {σ : Type} (environment : Environment σ) (state : σ) (engine : Engine)
    (line : Bytes) :
    let request := Request.ofReceived line
    let events := (engine.process line).trace environment state
    let processed := (engine.process line).run environment state
    Framed request engine processed.1.2 events ∧
    (∀ failure, request.refusal? = some failure →
      events = [] ∧ processed.2 = state ∧ processed.1.2.devices = engine.devices ∧
        processed.1.1 = Frame.render failure.code []) ∧
    (Element.firstFault? events = none →
      (Frame.shownStatus processed.1.1 ∈ Failure.requestCodes ↔ request.refusal? ≠ none)) := by
  intro request events processed
  refine ⟨engine.framed_process environment state line, ?_, fun hfault => ?_⟩
  · intro failure hrefusal
    obtain ⟨after, hprocess, hdevices, -⟩ := engine.process_of_refusal? hrefusal
    simp only [events, processed, hprocess]
    exact ⟨rfl, rfl, hdevices, rfl⟩
  -- an accepted line shows no code of a refusal, a refused one shows its own
  · cases hrefusal : request.refusal? with
    | none =>
      have hstatus := (engine.status_of_accepted hrefusal).run environment state hfault
      exact ⟨fun hmem => absurd hmem hstatus, fun hnone => absurd rfl hnone⟩
    | some failure =>
      obtain ⟨after, hprocess, -⟩ := engine.process_of_refusal? hrefusal
      have hshown : Frame.shownStatus processed.1.1 = failure.code := by
        simp only [processed, hprocess]
        exact Frame.shownStatus_render (List.not_mem_nil) failure.code []
      rw [hshown]
      exact ⟨fun _ => nofun, fun _ => request.code_mem_of_refusal? hrefusal⟩

end Engine

end SecureKit

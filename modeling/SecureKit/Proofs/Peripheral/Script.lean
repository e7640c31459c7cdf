import Mathlib.Tactic.SplitIfs
import SecureKit.Proofs.Peripheral.Calls
import SecureKit.Simulation.Bench

/-!
# Scripted Devices

The simulated device answers from a script, in which every call of a kind finds its own entries.
So it makes no difference to what is received whether the device was idled and woken before.

* `Environment.Resumes` — peripherals with a device that goes on where it was idled.
* `Bench.resumes` — the simulated bus has such a device, if it is there and no fault keeps it from
  waking, taking frames and idling.
-/

namespace SecureKit

/-- Where the device is ready, it wakes, takes frames and idles. What is received depends on a view
of the peripherals that waking and idling do not change. -/
structure Environment.Resumes {σ ω : Type} (environment : Environment σ) (ready : σ → Prop)
    (view : σ → ω) : Prop where
  wakes : ∀ state, ready state → (environment.answer .wake state).1 = .ok ()
  sends : ∀ frame state, ready state → (environment.answer (.send frame) state).1 = .ok ()
  idles : ∀ state, ready state → (environment.answer .idle state).1 = .ok ()
  stays : ∀ request state, ready state → request.InTransaction →
    ready (environment.answer request state).2
  view_wake : ∀ state, view (environment.answer .wake state).2 = view state
  view_idle : ∀ state, view (environment.answer .idle state).2 = view state
  receives : ∀ room state state', view state = view state' →
    (environment.answer (.receive room) state).1 = (environment.answer (.receive room) state').1 ∧
      view (environment.answer (.receive room) state).2 =
        view (environment.answer (.receive room) state').2

namespace Faults

variable {ο ε : Type} [DecidableEq ο] {operation : ο}

/-- A fault is one that the script has for the operation. -/
theorem mem_of_take {script : Faults ο ε} {fault : ε}
    (h : (take operation script).1 = some fault) : (operation, some fault) ∈ script := by
  induction script with
  | nil => cases h
  | cons entry rest ih =>
    obtain ⟨operation', fault'⟩ := entry
    rw [take] at h
    split_ifs at h with hsame
    · obtain rfl : fault' = some fault := h
      exact hsame ▸ List.mem_cons_self
    · exact List.mem_cons_of_mem _ (ih h)

/-- What remains of a script was in it. -/
theorem take_sublist (script : Faults ο ε) :
    List.Sublist (take operation script).2 script := by
  induction script with
  | nil => exact List.Sublist.refl _
  | cons entry rest ih =>
    rw [take]
    split_ifs
    · exact List.sublist_cons_self _ _
    · exact ih.cons_cons entry

variable {keeps : ο → Bool}

/-- An operation finds its fault in what is kept of a script, if its entries are. -/
theorem take_filter (h : keeps operation = true) (script : Faults ο ε) :
    take operation (script.filter (keeps ·.1)) =
      ((take operation script).1, (take operation script).2.filter (keeps ·.1)) := by
  induction script with
  | nil => rfl
  | cons entry rest ih =>
    obtain ⟨operation', fault⟩ := entry
    by_cases hsame : operation' = operation
    · simp [take, hsame, h]
    · -- the entry is passed over, whether it is kept or not
      cases hkeeps : keeps operation' <;> simp [take, hsame, hkeeps, ih]

/-- An operation takes nothing from what is kept of a script, if its entries are not. -/
theorem filter_take (h : keeps operation = false) (script : Faults ο ε) :
    (take operation script).2.filter (keeps ·.1) = script.filter (keeps ·.1) := by
  induction script with
  | nil => rfl
  | cons entry rest ih =>
    obtain ⟨operation', fault⟩ := entry
    rw [take]
    split_ifs with hsame
    · subst hsame
      exact (List.filter_cons_of_neg (by simp [h])).symm
    · rw [List.filter_cons, List.filter_cons, ih]

end Faults

namespace SimulatedBus

/-- The device is there, and no fault keeps it from waking, taking frames and idling. -/
structure Willing (bus : SimulatedBus) : Prop where
  present : bus.present.elim true (·.contains bus.address) = true
  faultless : ∀ entry ∈ bus.faults, entry.1 ∈ [Operation.wake, .send, .idle] → entry.2 = none

/-- Whether an operation is one other than waking and idling. -/
def Operation.exchanges : Operation → Bool
  | wake | idle => false
  | sleep | send | receive => true

/-- The bus without the script for waking and idling. -/
def rested (bus : SimulatedBus) : SimulatedBus :=
  { bus with faults := bus.faults.filter (·.1.exchanges) }

theorem attempt_eq (bus : SimulatedBus) (operation : Operation) :
    bus.attempt operation = ((bus.faults.take operation).1.elim (.ok ()) .error,
      { bus with faults := (bus.faults.take operation).2 }) := rfl

variable {bus : SimulatedBus}

/-- A bus stays willing if its script gets shorter. -/
theorem Willing.of_subset (h : bus.Willing) {bus' : SimulatedBus}
    (hpresent : bus'.present = bus.present) (haddress : bus'.address = bus.address)
    (hfaults : bus'.faults ⊆ bus.faults) : bus'.Willing where
  present := by rw [hpresent, haddress]; exact h.present
  faultless entry hentry := h.faultless entry (hfaults hentry)

/-- A willing bus wakes, sends and idles, which uses up the script for it. -/
theorem Willing.attempt (h : bus.Willing) {operation : Operation}
    (hoperation : operation ∈ [Operation.wake, .send, .idle]) :
    bus.attempt operation = (.ok (), { bus with faults := (bus.faults.take operation).2 }) := by
  have hnone : (bus.faults.take operation).1 = none := by
    rw [Option.eq_none_iff_forall_ne_some]
    intro fault hfault
    exact absurd (h.faultless _ (Faults.mem_of_take hfault) hoperation) nofun
  rw [attempt_eq, hnone]
  rfl

theorem Willing.wake (h : bus.Willing) : bus.wake.1 = .ok () := by
  rw [SimulatedBus.wake, h.attempt (by simp)]
  exact if_pos h.present

theorem Willing.send (h : bus.Willing) (frame : Bytes) : (bus.send frame).1 = .ok () := by
  rw [SimulatedBus.send, h.attempt (by simp)]

theorem Willing.idle (h : bus.Willing) : (bus.attempt .idle).1 = .ok () := by
  rw [h.attempt (by simp)]

/-- Waking uses up the script for it, and changes nothing else. -/
theorem wake_snd (bus : SimulatedBus) :
    bus.wake.2 = { bus with faults := (bus.faults.take .wake).2 } := by
  rw [SimulatedBus.wake]
  split
  next hattempt => exact congrArg Prod.snd hattempt.symm
  next hattempt => exact congrArg Prod.snd hattempt.symm

/-- Sending uses up the script for it, and may change the last opcode. -/
theorem send_snd (bus : SimulatedBus) (frame : Bytes) : ∃ opcode,
    (bus.send frame).2 =
      { bus with faults := (bus.faults.take .send).2, lastOpcode := opcode } := by
  rw [SimulatedBus.send]
  split
  next hattempt => exact ⟨bus.lastOpcode, congrArg Prod.snd hattempt.symm⟩
  next hattempt =>
    -- the frame that was taken says what the last opcode is
    have hbus := congrArg Prod.snd hattempt
    subst hbus
    exact ⟨_, rfl⟩

/-- The response does not depend on the script for waking and idling. -/
theorem respond?_rested (bus : SimulatedBus) :
    bus.rested.respond? = bus.respond?.map fun (response, bus) => (response, bus.rested) := by
  have hresponses : bus.rested.responses = bus.responses := rfl
  rw [respond?, respond?, hresponses]
  cases bus.responses with
  | cons response responses => rfl
  | nil =>
    show (if bus.lastOpcode = _ then _ else _) = _
    dsimp only
    split_ifs
    · show Option.map _ bus.revision = _
      cases bus.revision <;> rfl
    · rfl

/-- A response is taken from those to come, or given for the revision. -/
theorem respond?_snd (bus : SimulatedBus) {response : Bytes} {bus' : SimulatedBus}
    (h : bus.respond? = some (response, bus')) :
    ∃ responses, bus' = { bus with responses } := by
  rw [respond?] at h
  split at h
  · exact ⟨_, (congrArg Prod.snd (Option.some.inj h)).symm⟩
  · split_ifs at h
    obtain ⟨revision, -, hresponse⟩ := Option.map_eq_some_iff.1 h
    exact ⟨bus.responses, (congrArg Prod.snd hresponse).symm⟩

/-- Receiving uses up its script and responses, and changes nothing else. -/
theorem receive_snd (bus : SimulatedBus) (room : Nat) : ∃ responses,
    (bus.receive room).2 =
      { bus with faults := (bus.faults.take .receive).2, responses } := by
  rw [receive, attempt_eq]
  cases (bus.faults.take .receive).1 with
  | some fault => exact ⟨bus.responses, rfl⟩
  | none =>
    dsimp only [Option.elim_none]
    split
    next => exact ⟨bus.responses, rfl⟩
    next hrespond => exact respond?_snd _ hrespond

/-- Waking uses up nothing but the script for waking. -/
theorem rested_wake (bus : SimulatedBus) : bus.wake.2.rested = bus.rested := by
  rw [wake_snd, rested, Faults.filter_take rfl]
  rfl

theorem rested_idle (bus : SimulatedBus) : (bus.attempt .idle).2.rested = bus.rested := by
  rw [attempt_eq, rested, Faults.filter_take rfl]
  rfl

/-- What is received does not depend on the script for waking and idling. -/
theorem receive_rested (bus : SimulatedBus) (room : Nat) :
    bus.rested.receive room = ((bus.receive room).1, (bus.receive room).2.rested) := by
  have hattempt : bus.rested.attempt .receive =
      ((bus.attempt .receive).1, (bus.attempt .receive).2.rested) := by
    rw [attempt_eq, attempt_eq, rested, Faults.take_filter rfl]
    rfl
  rw [receive, receive, hattempt]
  generalize bus.attempt .receive = attempted
  obtain ⟨result, bus⟩ := attempted
  rcases result with error | _
  · rfl
  · dsimp only
    rw [respond?_rested]
    cases bus.respond? <;> rfl

end SimulatedBus

namespace Bench

variable {κ : Type} [Clock κ]

/-- The bench without its log and the script for waking and idling. -/
def rested (bench : Bench κ) : Bench κ := { bench with log := #[], bus := bench.bus.rested }

/-- A bus stays willing throughout a transaction. -/
theorem willing_answer {bench : Bench κ} (h : bench.bus.Willing) {request : Call}
    (hrequest : request.InTransaction) :
    (environment.answer request bench).2.bus.Willing := by
  -- an operation does no more than use up a part of the script
  have hattempt (operation : SimulatedBus.Operation) :
      (bench.bus.attempt operation).2.Willing :=
    h.of_subset rfl rfl (Faults.take_sublist _).subset
  cases request with
  | executionTime | delay => exact h
  | idle => exact hattempt .idle
  | sleep => exact hattempt .sleep
  | wake =>
    show bench.bus.wake.2.Willing
    rw [SimulatedBus.wake_snd]
    exact hattempt .wake
  | send frame =>
    show (bench.bus.send frame).2.Willing
    obtain ⟨opcode, hsent⟩ := bench.bus.send_snd frame
    rw [hsent]
    exact h.of_subset rfl rfl (Faults.take_sublist _).subset
  | receive room =>
    show (bench.bus.receive room).2.Willing
    obtain ⟨responses, hreceived⟩ := bench.bus.receive_snd room
    rw [hreceived]
    exact h.of_subset rfl rfl (Faults.take_sublist _).subset
  | _ => exact hrequest.elim

/-- The simulated device goes on where it was idled. -/
theorem resumes :
    (environment (κ := κ)).Resumes (fun bench => bench.bus.Willing) rested where
  wakes _ h := h.wake
  sends frame _ h := h.send frame
  idles _ h := h.idle
  stays _ _ h hrequest := willing_answer h hrequest
  view_wake bench := by
    show { bench with log := #[], bus := bench.bus.wake.2.rested } = bench.rested
    rw [SimulatedBus.rested_wake]
    rfl
  view_idle bench := by
    show { bench with log := #[], bus := (bench.bus.attempt .idle).2.rested } = bench.rested
    rw [SimulatedBus.rested_idle]
    rfl
  receives room bench bench' h := by
    have hanswer (bench : Bench κ) :
        (environment.answer (.receive room) bench).1 = (bench.rested.bus.receive room).1 ∧
          (environment.answer (.receive room) bench).2.rested =
            { bench.rested with bus := (bench.rested.bus.receive room).2 } := by
      have hbus : bench.rested.bus.receive room = _ := bench.bus.receive_rested room
      rw [hbus]
      exact ⟨rfl, rfl⟩
    rw [(hanswer bench).1, (hanswer bench).2, (hanswer bench').1, (hanswer bench').2, h]
    exact ⟨rfl, rfl⟩

end Bench

end SecureKit

import SecureKit.Proofs.Peripheral.Script

/-!
# The Address in Use

Where the address of the device is a part of the peripherals' state, that state can be told from the
calls of a program.

* `Environment.Addressed.run` — the address that was selected last is in use.
* `Environment.Addressed.told` — an address told at the end of a program is the one in use then.
* `Bench.addressed` — the simulated bus has such an address.
-/

namespace SecureKit

open Program

/-- The address that is selected in an event, if one is. -/
def Event.selected? : Event → Option UInt8
  | ⟨.select address, _⟩ => some address
  | _ => none

/-- The address in use is a part of the peripherals' state: it is told when it is asked for, and
changed by selecting another one only. -/
structure Environment.Addressed {σ : Type} (environment : Environment σ) (address : σ → UInt8) :
    Prop where
  tells : ∀ state, (environment.answer .address state).1 = address state
  moves : ∀ request state, address (environment.answer request state).2 =
    (Event.selected? ⟨request, (environment.answer request state).1⟩).getD (address state)

/-- After a program the address that was selected last is in use. -/
theorem Environment.Addressed.run {σ α : Type} {environment : Environment σ} {address : σ → UInt8}
    (h : environment.Addressed address) (program : Program α) (state : σ) :
    address (program.run environment state).2 =
      ((program.trace environment state).filterMap Event.selected?).getLast?.getD
        (address state) := by
  induction program generalizing state with
  | done value => rfl
  | call request next ih =>
    rw [run_call, ih, h.moves, trace_call, List.filterMap_cons]
    cases Event.selected? ⟨request, (environment.answer request state).1⟩ with
    | none => rfl
    | some address => rw [List.getLast?_cons]; rfl

/-- An address that is told at the end of a program is the one in use then. -/
theorem Environment.Addressed.told {σ α : Type} {environment : Environment σ} {address : σ → UInt8}
    (h : environment.Addressed address) (program : Program α) (state : σ) (earlier : List Event)
    (answer : UInt8)
    (htrace : program.trace environment state = earlier ++ [⟨.address, answer⟩]) :
    answer = address (program.run environment state).2 := by
  induction program generalizing state earlier with
  | done value => exact absurd htrace.symm (List.append_ne_nil_of_right_ne_nil _ nofun)
  | call request next ih =>
    cases earlier with
    | cons event earlier => exact ih _ _ _ (List.cons.inj htrace).2
    | nil =>
      obtain ⟨hevent, hrest⟩ := List.cons.inj htrace
      -- nothing comes after the call, so the address stays as it was told
      obtain rfl : request = .address := congrArg Event.call hevent
      have hanswer : (environment.answer .address state).1 = answer :=
        eq_of_heq (Event.mk.inj hevent).2
      rw [run_call, h.run, hrest, ← hanswer, h.tells]
      exact (h.moves .address state).symm

/-- On the bench the address in use is that of the simulated bus. -/
theorem Bench.addressed {κ : Type} [Clock κ] :
    (Bench.environment (κ := κ)).Addressed fun bench => bench.bus.address where
  tells _ := rfl
  moves request bench := by
    cases request with
    | wake =>
      show bench.bus.wake.2.address = bench.bus.address
      rw [SimulatedBus.wake_snd]
    | send frame =>
      show (bench.bus.send frame).2.address = bench.bus.address
      obtain ⟨opcode, hsent⟩ := bench.bus.send_snd frame
      rw [hsent]
    | receive room =>
      show (bench.bus.receive room).2.address = bench.bus.address
      obtain ⟨responses, hreceived⟩ := bench.bus.receive_snd room
      rw [hreceived]
    | _ => rfl

end SecureKit

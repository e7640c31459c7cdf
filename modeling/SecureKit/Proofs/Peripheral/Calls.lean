import SecureKit.Proofs.Peripheral.Program

/-!
# The Calls a Program May Make

Which peripherals a part of the kit uses, whatever they answer.

* `CallsOnly.bind` — a program followed by another one.
* `CallsOnly.of_mem_trace` — the calls of every run are among those allowed.
* `CallsOnly.keeps` — what is kept by all allowed calls is kept by every run.
-/

namespace SecureKit

/-- A call of the bus of the device, or a wait for the device. -/
def Call.ForElement : Call → Prop
  | .wake | .idle | .sleep | .send _ | .receive _ | .address | .select _ | .busType
  | .executionTime _ | .delay _ => True
  | _ => False

/-- A call of a transaction with the device at the address in use, or one that puts it to sleep. -/
def Call.InTransaction : Call → Prop
  | .wake | .idle | .sleep | .send _ | .receive _ | .executionTime _ | .delay _ => True
  | _ => False

theorem Call.InTransaction.forElement {request : Call} (h : request.InTransaction) :
    request.ForElement := by
  cases request with
  | wake | idle | sleep | send | receive | executionTime | delay => trivial
  | _ => exact h.elim

namespace Program

variable {α β σ : Type} {allowed : Call → Prop}

/-- All calls that the program may make are allowed. -/
def CallsOnly (allowed : Call → Prop) : Program α → Prop
  | done _ => True
  | call request next => allowed request ∧ ∀ reply, (next reply).CallsOnly allowed

/-- If both parts of a program make allowed calls only, so does the program. -/
theorem CallsOnly.bind {program : Program α} {rest : α → Program β}
    (h : program.CallsOnly allowed) (hrest : ∀ value, (rest value).CallsOnly allowed) :
    (program >>= rest).CallsOnly allowed := by
  induction program with
  | done value => exact hrest value
  | call request next ih => exact ⟨h.1, fun reply => ih reply (h.2 reply)⟩

theorem CallsOnly.mono {allowed' : Call → Prop}
    (himp : ∀ request, allowed request → allowed' request)
    {program : Program α} (h : program.CallsOnly allowed) : program.CallsOnly allowed' := by
  induction program with
  | done value => trivial
  | call request next ih => exact ⟨himp request h.1, fun reply => ih reply (h.2 reply)⟩

/-- Whatever is answered, all calls are allowed ones. -/
theorem CallsOnly.ensures {program : Program α} (h : program.CallsOnly allowed) :
    program.Ensures fun events _ => ∀ event ∈ events, allowed event.call := by
  induction program with
  | done value => exact fun _ hmem => absurd hmem List.not_mem_nil
  | call request next ih =>
    intro reply
    exact (ih reply (h.2 reply)).mono fun _ _ hrest => List.forall_mem_cons.2 ⟨h.1, hrest⟩

/-- In every environment all calls are allowed ones. -/
theorem CallsOnly.of_mem_trace {program : Program α} (h : program.CallsOnly allowed)
    (environment : Environment σ) (state : σ) :
    ∀ event ∈ program.trace environment state, allowed event.call :=
  h.ensures.run environment state

/-- What the allowed calls keep is kept by the program. -/
theorem CallsOnly.keeps {program : Program α} (h : program.CallsOnly allowed)
    {environment : Environment σ} (kept : σ → Prop)
    (hkeeps : ∀ request state, allowed request → kept state →
      kept (environment.answer request state).2)
    {state : σ} (hstate : kept state) : kept (program.run environment state).2 := by
  induction program generalizing state with
  | done value => exact hstate
  | call request next ih => exact ih _ (h.2 _) (hkeeps request state h.1 hstate)

end Program

end SecureKit

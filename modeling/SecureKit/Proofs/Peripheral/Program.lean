import SecureKit.Peripheral.Program

/-!
# What Programs Ensure

`Program.Ensures` states a property of the calls and the result of a program for whatever the
peripherals answer. It is proved along the program, with no environment at hand, and holds of every
run.

`Program.EnsuresUnder` is the same for peripherals of which something is known. `Program.Runs` is
what a program does in one state of them.

* `ensures_bind`, `ensuresUnder_bind` — a program followed by another one, part by part.
* `Ensures.run` — what is ensured holds of every run in every environment.
* `EnsuresUnder.run` — what is ensured under a condition holds of every run whose events satisfy it.
-/

namespace SecureKit.Program

variable {α β σ : Type}

/-- Whatever is answered, the calls and the result of the program satisfy `post`. -/
def Ensures : Program α → (List Event → α → Prop) → Prop
  | done value, post => post [] value
  | call request next, post =>
    ∀ reply, (next reply).Ensures fun events value => post (⟨request, reply⟩ :: events) value

@[simp]
theorem ensures_done (value : α) (post : List Event → α → Prop) :
    (done value).Ensures post ↔ post [] value := Iff.rfl

@[simp]
theorem ensures_call (request : Call) (next : request.Reply → Program α)
    (post : List Event → α → Prop) :
    (call request next).Ensures post ↔
      ∀ reply, (next reply).Ensures fun events value => post (⟨request, reply⟩ :: events) value :=
  Iff.rfl

/-- A program followed by another one ensures what the second one ensures of the calls of both. -/
@[simp]
theorem ensures_bind (program : Program α) (rest : α → Program β)
    (post : List Event → β → Prop) :
    (program >>= rest).Ensures post ↔
      program.Ensures fun events value =>
        (rest value).Ensures fun events' value' => post (events ++ events') value' := by
  induction program generalizing post with
  | done value => rfl
  | call request next ih => simp [ih]

/-- What is ensured may be weakened. -/
theorem Ensures.mono {program : Program α} {post post' : List Event → α → Prop}
    (h : program.Ensures post) (himp : ∀ events value, post events value → post' events value) :
    program.Ensures post' := by
  induction program generalizing post post' with
  | done value => exact himp [] value h
  | call request next ih =>
    intro reply
    exact ih reply (h reply) fun events value => himp (⟨request, reply⟩ :: events) value

/-- What is ensured on its own is ensured together. -/
theorem Ensures.and {program : Program α} {post post' : List Event → α → Prop}
    (h : program.Ensures post) (h' : program.Ensures post') :
    program.Ensures fun events value => post events value ∧ post' events value := by
  induction program generalizing post post' with
  | done value => exact ⟨h, h'⟩
  | call request next ih => exact fun reply => ih reply (h reply) (h' reply)

/-- What always holds is ensured. -/
theorem ensures_of_forall {program : Program α} {post : List Event → α → Prop}
    (h : ∀ events value, post events value) : program.Ensures post := by
  induction program generalizing post with
  | done value => exact h [] value
  | call request next ih =>
    intro reply
    exact ih reply fun events value => h (⟨request, reply⟩ :: events) value

/-- What is ensured holds of every run. -/
theorem Ensures.run {program : Program α} {post : List Event → α → Prop}
    (h : program.Ensures post) (environment : Environment σ) (state : σ) :
    post (program.trace environment state) (program.run environment state).1 := by
  induction program generalizing post state with
  | done value => exact h
  | call request next ih =>
    -- the environment gives one of the answers for which `post` was shown
    exact ih _ (h (environment.answer request state).1) _

/-- The first call of a run is answered as the environment answers it. -/
theorem answer_of_trace_eq_cons {program : Program α} {environment : Environment σ} {state : σ}
    {request : Call} {reply : request.Reply} {rest : List Event}
    (h : program.trace environment state = ⟨request, reply⟩ :: rest) :
    (environment.answer request state).1 = reply := by
  cases program with
  | done value => cases h
  | call request' next =>
    obtain ⟨hevent, -⟩ := List.cons.inj h
    obtain rfl : request' = request := congrArg Event.call hevent
    exact eq_of_heq (Event.mk.inj hevent).2

/-- A program may go on in another way that is the same for all results that are ensured. -/
theorem Ensures.bind_congr {program : Program α} {post : α → Prop} {rest rest' : α → Program β}
    (h : program.Ensures fun _ value => post value)
    (hrest : ∀ value, post value → rest value = rest' value) :
    program >>= rest = program >>= rest' := by
  induction program with
  | done value => exact hrest value h
  | call request next ih =>
    rw [call_bind, call_bind]
    congr 1
    funext reply
    exact ih reply (h reply)

/-- The calls and the result of the program satisfy `post` as long as all its events are among those
of `allows`. -/
def EnsuresUnder (allows : Event → Prop) : Program α → (List Event → α → Prop) → Prop
  | done value, post => post [] value
  | call request next, post =>
    ∀ reply, allows ⟨request, reply⟩ →
      (next reply).EnsuresUnder allows fun events value => post (⟨request, reply⟩ :: events) value

variable (allows : Event → Prop)

@[simp]
theorem ensuresUnder_done (value : α) (post : List Event → α → Prop) :
    (done value).EnsuresUnder allows post ↔ post [] value := Iff.rfl

@[simp]
theorem ensuresUnder_call (request : Call) (next : request.Reply → Program α)
    (post : List Event → α → Prop) :
    (call request next).EnsuresUnder allows post ↔
      ∀ reply, allows ⟨request, reply⟩ →
        (next reply).EnsuresUnder allows fun events value =>
          post (⟨request, reply⟩ :: events) value := Iff.rfl

/-- A program followed by another one ensures what the second one ensures of the calls of both. -/
@[simp]
theorem ensuresUnder_bind (program : Program α) (rest : α → Program β)
    (post : List Event → β → Prop) :
    (program >>= rest).EnsuresUnder allows post ↔
      program.EnsuresUnder allows fun events value =>
        (rest value).EnsuresUnder allows fun events' value' => post (events ++ events') value' := by
  induction program generalizing post with
  | done value => rfl
  | call request next ih => simp [ih]

variable {allows} in
/-- What is ensured under a condition may be weakened. -/
theorem EnsuresUnder.mono {program : Program α} {post post' : List Event → α → Prop}
    (h : program.EnsuresUnder allows post)
    (himp : ∀ events value, post events value → post' events value) :
    program.EnsuresUnder allows post' := by
  induction program generalizing post post' with
  | done value => exact himp [] value h
  | call request next ih =>
    intro reply hreply
    exact ih reply (h reply hreply) fun events value => himp (⟨request, reply⟩ :: events) value

variable {allows} in
/-- What is ensured whatever is answered is ensured under every condition. -/
theorem Ensures.under {program : Program α} {post : List Event → α → Prop}
    (h : program.Ensures post) : program.EnsuresUnder allows post := by
  induction program generalizing post with
  | done value => exact h
  | call request next ih => exact fun reply _ => ih reply (h reply)

/-- What is ensured under a condition holds of every run whose events satisfy it. -/
theorem EnsuresUnder.run {allows : Event → Prop} {program : Program α}
    {post : List Event → α → Prop} (h : program.EnsuresUnder allows post)
    {environment : Environment σ} {state : σ}
    (hallows : ∀ event ∈ program.trace environment state, allows event) :
    post (program.trace environment state) (program.run environment state).1 := by
  induction program generalizing post state with
  | done value => exact h
  | call request next ih =>
    obtain ⟨hfirst, hrest⟩ := List.forall_mem_cons.1 hallows
    exact ih _ (h (environment.answer request state).1 hfirst) hrest

/-- From a state of the peripherals the program makes calls with these answers, and ends with a
value and in another state. -/
structure Runs (environment : Environment σ) (program : Program α) (state : σ)
    (events : List Event) (value : α) (after : σ) : Prop where
  trace_eq : program.trace environment state = events
  run_eq : program.run environment state = (value, after)

variable {environment : Environment σ} {state after : σ} {events : List Event}

theorem Runs.done (value : α) : (done value).Runs environment state [] value state := ⟨rfl, rfl⟩

/-- A program that makes a call goes on with the answer to it. -/
theorem Runs.call {request : Call} {next : request.Reply → Program α} {reply : request.Reply}
    {value : α} (hreply : (environment.answer request state).1 = reply)
    (h : (next reply).Runs environment (environment.answer request state).2 events value after) :
    (call request next).Runs environment state (⟨request, reply⟩ :: events) value after := by
  subst hreply
  exact ⟨congrArg (List.cons _) h.trace_eq, h.run_eq⟩

/-- Programs run one after the other. -/
theorem Runs.bind {program : Program α} {rest : α → Program β} {value : α} {middle : σ}
    {events' : List Event} {value' : β}
    (h : program.Runs environment state events value middle)
    (hrest : (rest value).Runs environment middle events' value' after) :
    (program >>= rest).Runs environment state (events ++ events') value' after := by
  constructor
  · rw [trace_bind, h.run_eq, h.trace_eq, hrest.trace_eq]
  · rw [run_bind, h.run_eq, hrest.run_eq]

/-- What is made of a result needs no calls. -/
theorem Runs.bind_return {program : Program α} {value : α} (f : α → β)
    (h : program.Runs environment state events value after) :
    (program >>= fun value => return f value).Runs environment state events (f value) after := by
  rw [← List.append_nil events]
  exact h.bind (.done (f value))

end SecureKit.Program

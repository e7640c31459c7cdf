import SecureKit.Peripheral.Call

/-!
# Programs

A `Program` is a computation that makes peripheral calls: it either has a result, or makes a call
and goes on depending on the answer. An `Environment` answers calls from a state of its own; running
a program in all environments covers all behaviours of the peripherals.

* `run_bind`, `trace_bind` — a program followed by another one runs them one after the other.
-/

namespace SecureKit

/-- A computation that makes peripheral calls. -/
inductive Program (α : Type) where
  /-- The computation has ended with a value. -/
  | done (value : α)
  /-- Make a call and go on with its answer. -/
  | call (request : Call) (next : request.Reply → Program α)

namespace Program

variable {α β γ σ : Type}

/-- Go on with the result of a program. -/
protected def bind : Program α → (α → Program β) → Program β
  | done value, rest => rest value
  | call request next, rest => call request fun reply => (next reply).bind rest

instance : Monad Program where
  pure := done
  bind := Program.bind

/-- The program that makes one call. -/
def perform (request : Call) : Program request.Reply := call request done

@[simp]
theorem perform_eq (request : Call) : perform request = call request done := rfl

@[simp]
theorem pure_eq (value : α) : (pure value : Program α) = done value := rfl

@[simp]
theorem done_bind (value : α) (rest : α → Program β) : done value >>= rest = rest value := rfl

@[simp]
theorem call_bind (request : Call) (next : request.Reply → Program α) (rest : α → Program β) :
    call request next >>= rest = call request fun reply => next reply >>= rest := rfl

/-- Ending with the result of a program is the program. -/
theorem bind_done (program : Program α) : program >>= done = program := by
  induction program with
  | done value => rfl
  | call request next ih => simp [ih]

/-- Programs are sequenced in either grouping. -/
theorem bind_assoc' (program : Program α) (second : α → Program β) (third : β → Program γ) :
    program >>= second >>= third = program >>= fun value => second value >>= third := by
  induction program with
  | done value => rfl
  | call request next ih => simp [ih]

instance : LawfulMonad Program :=
  LawfulMonad.mk' Program bind_done (fun _ _ => rfl) bind_assoc'

end Program

/-- Peripherals that answer calls, with a state of their own. -/
structure Environment (σ : Type) where
  /-- The answer to a call and the state afterwards. -/
  answer : (request : Call) → σ → request.Reply × σ

namespace Program

variable {α β σ : Type}

/-- The result of a program in an environment, and the state of the environment afterwards. -/
def run (environment : Environment σ) : Program α → σ → α × σ
  | done value, state => (value, state)
  | call request next, state =>
    let (reply, state) := environment.answer request state
    (next reply).run environment state

/-- The calls a program makes in an environment, with their answers. -/
def trace (environment : Environment σ) : Program α → σ → List Event
  | done _, _ => []
  | call request next, state =>
    let (reply, state) := environment.answer request state
    ⟨request, reply⟩ :: (next reply).trace environment state

variable (environment : Environment σ)

@[simp]
theorem run_done (value : α) (state : σ) :
    (done value).run environment state = (value, state) := rfl

@[simp]
theorem run_call (request : Call) (next : request.Reply → Program α) (state : σ) :
    (call request next).run environment state =
      (next (environment.answer request state).1).run environment
        (environment.answer request state).2 := rfl

@[simp]
theorem trace_done (value : α) (state : σ) : (done value).trace environment state = [] := rfl

@[simp]
theorem trace_call (request : Call) (next : request.Reply → Program α) (state : σ) :
    (call request next).trace environment state =
      ⟨request, (environment.answer request state).1⟩ ::
        (next (environment.answer request state).1).trace environment
          (environment.answer request state).2 := rfl

/-- A program followed by another one: the second starts where the first ends. -/
@[simp]
theorem run_bind (program : Program α) (rest : α → Program β) (state : σ) :
    (program >>= rest).run environment state =
      (rest (program.run environment state).1).run environment
        (program.run environment state).2 := by
  induction program generalizing state with
  | done value => rfl
  | call request next ih => simp [ih]

/-- The calls of a program followed by another one. -/
@[simp]
theorem trace_bind (program : Program α) (rest : α → Program β) (state : σ) :
    (program >>= rest).trace environment state =
      program.trace environment state ++
        (rest (program.run environment state).1).trace environment
          (program.run environment state).2 := by
  induction program generalizing state with
  | done value => rfl
  | call request next ih => simp [ih]

end Program

end SecureKit

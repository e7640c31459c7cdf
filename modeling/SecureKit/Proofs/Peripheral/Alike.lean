import SecureKit.Peripheral.Program

/-!
# Programs that Look Alike

Two programs look alike if they make the same calls for as long as they get the same answers, and
end with related values. From outside they cannot be told apart but by what the relation leaves
open.

* `Alike.bind` — programs that look alike may be followed by programs that do.
* `Alike.run` — the runs of programs that look alike, in every environment.
-/

namespace SecureKit.Program

variable {α α' β β' σ : Type}

/-- The same calls, whatever is answered, and related results. -/
inductive Alike (related : α → α' → Prop) : Program α → Program α' → Prop
  | done {value : α} {value' : α'} (h : related value value') :
    Alike related (done value) (done value')
  | call (request : Call) {next : request.Reply → Program α} {next' : request.Reply → Program α'}
    (h : ∀ reply, Alike related (next reply) (next' reply)) :
    Alike related (call request next) (call request next')

variable {related : α → α' → Prop} {program : Program α} {program' : Program α'}

/-- A program looks like itself. -/
theorem Alike.refl (program : Program α) : Alike (· = ·) program program := by
  induction program with
  | done value => exact .done rfl
  | call request next ih => exact .call request ih

/-- Programs that are alike may go on in ways that are alike. -/
theorem Alike.bind {related' : β → β' → Prop} {rest : α → Program β} {rest' : α' → Program β'}
    (h : Alike related program program')
    (hrest : ∀ value value', related value value' → Alike related' (rest value) (rest' value')) :
    Alike related' (program >>= rest) (program' >>= rest') := by
  induction h with
  | done h => exact hrest _ _ h
  | call request _ ih => exact .call request ih

/-- A program may be followed by programs that look alike for each of its results. -/
theorem Alike.bind_same {related' : β → β' → Prop} (program : Program α) {rest : α → Program β}
    {rest' : α → Program β'} (hrest : ∀ value, Alike related' (rest value) (rest' value)) :
    Alike related' (program >>= rest) (program >>= rest') :=
  (Alike.refl program).bind fun value _ h => h ▸ hrest value

/-- Programs that look alike run alike: with the same calls and answers, to related results, and to
the same state of the peripherals. -/
theorem Alike.run (h : Alike related program program') (environment : Environment σ) (state : σ) :
    program.trace environment state = program'.trace environment state ∧
      related (program.run environment state).1 (program'.run environment state).1 ∧
      (program.run environment state).2 = (program'.run environment state).2 := by
  induction h generalizing state with
  | done h => exact ⟨rfl, h, rfl⟩
  | call request _ ih =>
    -- the first answer is the same, for it is to the same call in the same state
    obtain ⟨htrace, hresult, hstate⟩ :=
      ih (environment.answer request state).1 (environment.answer request state).2
    exact ⟨congrArg (List.cons _) htrace, hresult, hstate⟩

end SecureKit.Program

import SecureKit.Proofs.Protocol.Effects
import SecureKit.Proofs.Protocol.Grammar
import SecureKit.Proofs.Timing.Clock

/-!
# Setting the Time

The board sets its clock on an application command. The command is acknowledged if the clock was
set, and only then.

* `SetsTime` — the loads that ask for a date that can be set.
* `applicationRefusal?_of_not_setsTime` — all other loads are refused.
* `setTime_acknowledged` — the acknowledgement tells what the clock has done.
-/

namespace SecureKit

open Program

/-- The load asks to set the clock to a date: it has the opcode, then the record of a date that can
be set, and then any bytes. -/
def SetsTime (load : Bytes) (date : DateTime) : Prop :=
  date.InRange ∧ ∃ rest, load = setTimeOpcode :: (date.packed ++ rest)

/-- A load sets the time if it starts with the opcode and goes on with a valid record. -/
theorem setsTime_cons_iff {opcode : UInt8} {record : Bytes} {date : DateTime} :
    SetsTime (opcode :: record) date ↔
      opcode = setTimeOpcode ∧ DateTime.ofPacked? record = some date := by
  rw [DateTime.ofPacked?_eq_some_iff]
  constructor
  · rintro ⟨hrange, rest, hload⟩
    obtain ⟨rfl, rfl⟩ := List.cons.inj hload
    exact ⟨rfl, hrange, rest, rfl⟩
  · rintro ⟨rfl, hrange, rest, rfl⟩
    exact ⟨hrange, rest, rfl⟩

/-- A load that sets the time makes this one call, and succeeds. -/
theorem runApplication_of_setsTime {load : Bytes} {date : DateTime} (h : SetsTime load date) :
    runApplication load = (do perform (.setClock date); return .ok ()) := by
  obtain ⟨-, rest, hload⟩ := id h
  subst hload
  obtain ⟨-, hdate⟩ := setsTime_cons_iff.1 h
  rw [runApplication, if_pos rfl, hdate]

/-- A load that does not set the clock is refused. -/
theorem applicationRefusal?_of_not_setsTime {load : Bytes} (h : ¬∃ date, SetsTime load date) :
    applicationRefusal? load =
      some (.device (if load = [] then .badParam else .parseError)) := by
  cases load with
  | nil => rfl
  | cons opcode record =>
    have hnone : ¬(opcode = setTimeOpcode ∧ (DateTime.ofPacked? record).isSome) := by
      rintro ⟨hopcode, hrecord⟩
      obtain ⟨date, hdate⟩ := Option.isSome_iff_exists.1 hrecord
      exact h ⟨date, setsTime_cons_iff.2 ⟨hopcode, hdate⟩⟩
    rw [applicationRefusal?, if_neg hnone, if_neg (List.cons_ne_nil opcode record)]

/-- The line with an application command. -/
def applicationLine (load : Bytes) : Bytes :=
  Bytes.ofText "b:a(" ++ Hex.encode load ++ [Frame.closing]

/-- The line with an application command is read as that command, with its load. -/
theorem Request.ofReceived_applicationLine (load : Bytes) :
    ofReceived (applicationLine load) = .board (.application (some load)) := by
  have hline : applicationLine load =
      Bytes.ofText "b:a" ++ Frame.opening :: (Hex.encode load ++ [Frame.closing]) := by
    rw [applicationLine, List.append_assoc]
    rfl
  rw [hline]
  refine ofReceived_enclosed (by decide) fun text hload => ?_
  refine .direct (noToken_cons (by decide) _) (.board (.application ?_ hload))
  exact ⟨[Bytes.ascii 'b'], by decide, rfl⟩

namespace Engine

/-- A load that sets the clock is acknowledged after it was done. -/
theorem process_of_setsTime (engine : Engine) {line load : Bytes} {date : DateTime}
    (hline : Request.ofReceived line = .board (.application (some load)))
    (h : SetsTime load date) :
    ∃ after, engine.process line = (do
      perform (.setClock date)
      return (Frame.render KitStatus.success.code [], after)) := by
  have hroom : 0 + Frame.framedLength 1 ≤ Frame.bufferSize := by decide
  rw [engine.process_board hline, BoardCommand.run, runApplication_of_setsTime h]
  simp only [perform_eq, pure_eq, call_bind, done_bind]
  rw [shown_respondBoard _ ⟨"", .ok []⟩ hroom]
  exact ⟨_, rfl⟩

/-- An application command is acknowledged if its load sets the clock to a date, and only then. The
clock shows the seconds of the date afterwards, which every such date has. All other loads change
nothing, and are answered with an error that tells whether there was a load. -/
theorem setTime_acknowledged {σ κ : Type} [Clock κ] [LawfulClock κ] {environment : Environment σ}
    {clock : σ → κ} (htimed : environment.Timed clock) (state : σ) (engine : Engine)
    (load : Bytes) :
    (∃ line, Request.ofReceived line = .board (.application (some load))) ∧
    ∀ line, Request.ofReceived line = .board (.application (some load)) →
      let processed := (engine.process line).run environment state
      (processed.1.1 = Bytes.ofText "00()\n" ↔ ∃ date, SetsTime load date) ∧
      (∀ date, SetsTime load date → ∃ seconds, date.seconds? = some seconds ∧
        (environment.answer .utc processed.2).1 = seconds) ∧
      ((¬∃ date, SetsTime load date) → processed.2 = state ∧
        processed.1.1 = Bytes.ofText (if load = [] then "E2()\n" else "D2()\n")) := by
  refine ⟨⟨applicationLine load, Request.ofReceived_applicationLine load⟩, fun line hline => ?_⟩
  intro processed
  have hset : ∀ date, SetsTime load date →
      processed.1.1 = Bytes.ofText "00()\n" ∧
        processed.2 = (environment.answer (.setClock date) state).2 := by
    intro date h
    obtain ⟨after, hprocess⟩ := engine.process_of_setsTime hline h
    simp only [processed, hprocess]
    exact ⟨rfl, rfl⟩
  have hrefused : (¬∃ date, SetsTime load date) → processed.2 = state ∧
      processed.1.1 = Bytes.ofText (if load = [] then "E2()\n" else "D2()\n") := by
    intro h
    have hrefusal : (Request.ofReceived line).refusal? =
        some (.device (if load = [] then .badParam else .parseError)) := by
      rw [hline, Request.refusal?, BoardCommand.refusal?, applicationRefusal?_of_not_setsTime h]
    obtain ⟨after, hprocess, -⟩ := engine.process_of_refusal? hrefusal
    simp only [processed, hprocess]
    refine ⟨rfl, ?_⟩
    split
    · rfl
    · rfl
  refine ⟨⟨fun hacknowledged => ?_, fun h => ?_⟩, fun date h => ?_, hrefused⟩
  · -- neither of the errors reads like the acknowledgement
    by_contra h
    rw [(hrefused h).2] at hacknowledged
    split at hacknowledged
    · exact absurd hacknowledged (by decide)
    · exact absurd hacknowledged (by decide)
  · obtain ⟨date, h⟩ := h
    exact (hset date h).1
  · obtain ⟨seconds, hseconds⟩ := h.1.exists_seconds?
    refine ⟨seconds, hseconds, ?_⟩
    rw [(hset date h).2, htimed.tells, htimed.sets]
    exact LawfulClock.utc_set _ hseconds

/-- The same line on a clock that does not run and on one that was never set. -/
theorem setTime_acknowledged_clocks :
    let line := Bytes.ofText "b:a(00E207020E0C1E0F)"
    let onStill := ((Engine.new 10).process line).run Bench.environment
      (Bench.unscripted (StillClock.mk 7))
    let onSystem := ((Engine.new 10).process line).run Bench.environment
      (Bench.unscripted (SystemClock.new 10))
    (onStill.1.1 = Bytes.ofText "00()\n" ∧
      (Bench.environment.answer .utc onStill.2).1 = 1518611415) ∧
    (onSystem.1.1 = Bytes.ofText "00()\n" ∧
      (Bench.environment.answer .utc onSystem.2).1 = 1518611415) := by
  intro line onStill onSystem
  let date : DateTime := ⟨2018, 2, 14, 12, 30, 15⟩
  have hline : Request.ofReceived line =
      .board (.application (some (setTimeOpcode :: date.packed))) := by decide
  have hrange : date.InRange := date.isValid_iff.1 (by decide)
  have hsets : SetsTime (setTimeOpcode :: date.packed) date :=
    ⟨hrange, [], congrArg _ (List.append_nil _).symm⟩
  have hseconds : date.seconds? = some 1518611415 := by decide
  constructor
  · obtain ⟨-, hprocess⟩ := setTime_acknowledged Bench.timed (Bench.unscripted (StillClock.mk 7))
      (Engine.new 10) (setTimeOpcode :: date.packed)
    obtain ⟨hiff, hutc, -⟩ := hprocess line hline
    obtain ⟨seconds, hsome, htold⟩ := hutc date hsets
    obtain rfl := Option.some.inj (hseconds.symm.trans hsome)
    exact ⟨hiff.2 ⟨date, hsets⟩, htold⟩
  · obtain ⟨-, hprocess⟩ := setTime_acknowledged Bench.timed
      (Bench.unscripted (SystemClock.new 10)) (Engine.new 10) (setTimeOpcode :: date.packed)
    obtain ⟨hiff, hutc, -⟩ := hprocess line hline
    obtain ⟨seconds, hsome, htold⟩ := hutc date hsets
    obtain rfl := Option.some.inj (hseconds.symm.trans hsome)
    exact ⟨hiff.2 ⟨date, hsets⟩, htold⟩

end Engine

end SecureKit

import SecureKit.Cloud.Client
import SecureKit.Proofs.Cloud.Message
import SecureKit.Proofs.Timing.Clock

/-!
# Configuration, All or Nothing

A configuration message that can be read changes just what it has members for, and one that cannot
be read changes nothing, whichever of its members are good.

* `configured` — what a message makes of a client.
* `run_apply` — a message is applied as a whole.
* `configure_all_or_nothing` — the texts of messages, and all other texts.
-/

namespace SecureKit.Client

open Program

/-- The client after a message that was read at the time `now`: each of the settings is that of the
message if there is one, except for a telemetry period that is too short. -/
def configured (client : Client) (message : ConfigMessage) (now : UInt32) : Client :=
  { client with
    fan := { client.fan with
      map := message.speedMap.elim client.fan.map .ofDegrees
      overrideRpm := message.speedOverride.elim client.fan.overrideRpm (·.rpm)
      overrideEnd := message.speedOverride.elim client.fan.overrideEnd fun speed =>
        UInt32.ofNat (min (now.toNat + speed.duration.toNat) (UInt32.size - 1)) }
    updatePeriod := (message.updateRate.filter (periodMin < ·)).getD client.updatePeriod }

/-- The call that applying a message makes: the time is asked for if a speed is ordered. -/
def clockReads (message : ConfigMessage) (now : UInt32) : List Event :=
  (message.speedOverride.map fun _ => (⟨.utc, now⟩ : Event)).toList

section Run

variable {σ : Type} (environment : Environment σ) (state : σ) (client : Client)

/-- A message changes the settings that it has, and no others. -/
theorem run_apply (message : ConfigMessage) :
    let now := (environment.answer .utc state).1
    ((client.apply message).run environment state).1 = client.configured message now ∧
      (client.apply message).trace environment state = clockReads message now := by
  obtain ⟨speedMap, speedOverride, updateRate⟩ := message
  rw [apply]
  cases updateRate with
  | none => cases speedMap <;> cases speedOverride <;> exact ⟨rfl, rfl⟩
  | some rate =>
    dsimp only
    -- a telemetry period that is too short counts as none
    by_cases hrate : periodMin < rate
    · have hfilter : (some rate).filter (periodMin < ·) = some rate := by
        simp [Option.filter, hrate]
      rw [configured, hfilter]
      simp only [if_pos hrate]
      cases speedMap <;> cases speedOverride <;> exact ⟨rfl, rfl⟩
    · have hfilter : (some rate).filter (periodMin < ·) = none := by simp [Option.filter, hrate]
      rw [configured, hfilter]
      simp only [if_neg hrate]
      cases speedMap <;> cases speedOverride <;> exact ⟨rfl, rfl⟩

/-- A message is read from any of its texts, and applied. -/
theorem run_configure {message : ConfigMessage}
    (h : ∀ pairs ∈ message.speedMap, pairs.length ≤ SpeedMap.entriesMax) {text : Bytes}
    (htext : message.written.IsText text) :
    let now := (environment.answer .utc state).1
    ((client.configure text).run environment state).1 =
        (.ok (), client.configured message now) ∧
      (client.configure text).trace environment state = clockReads message now := by
  intro now
  obtain ⟨hclient, hevents⟩ := run_apply environment state client message
  have hread : ConfigMessage.ofJson? text = some message :=
    (WrittenConfig.ofJson?_of_isText htext).trans (ConfigMessage.message?_written h)
  rw [configure, hread]
  refine ⟨?_, ?_⟩
  · simp only [run_bind, pure_eq, run_done, hclient]
    rfl
  · simp only [trace_bind, pure_eq, trace_done, List.append_nil, hevents]
    rfl

end Run

/-- What is not read changes nothing, and asks for nothing. -/
theorem configure_of_eq_none (client : Client) {text : Bytes}
    (h : ConfigMessage.ofJson? text = none) :
    client.configure text = return (.error .parse, client) := by
  rw [configure, h]

/-- A message whose numbers and speed map are within their ranges is accepted, with its members in
any order, and sets what it has members for; a message with one number or one pair too many is
refused as a whole. No text that is refused changes anything, whatever stands in it. -/
theorem configure_all_or_nothing {σ : Type} (environment : Environment σ) (state : σ)
    (client : Client) :
    (∀ message : ConfigMessage,
      (∀ pairs ∈ message.speedMap, pairs.length ≤ SpeedMap.entriesMax) →
        message.written.IsText message.json ∧
        ∀ text, message.written.IsText text →
          let now := (environment.answer .utc state).1
          ((client.configure text).run environment state).1 =
              (.ok (), client.configured message now) ∧
            (client.configure text).trace environment state = clockReads message now) ∧
    (∀ config : WrittenConfig, ¬config.Fits → ∀ text, config.IsText text →
      client.configure text = return (.error .parse, client)) ∧
    ∀ text error, ((client.configure text).run environment state).1.1 = .error error →
      client.configure text = return (.error error, client) := by
  refine ⟨fun message h => ⟨message.isText_json, fun text htext => ?_⟩,
    fun config h text htext => ?_, fun text error herror => ?_⟩
  · exact run_configure environment state client h htext
  · refine client.configure_of_eq_none ?_
    rw [WrittenConfig.ofJson?_of_isText htext, Option.eq_none_iff_forall_ne_some]
    exact fun message hmessage => h (WrittenConfig.fits_of_message? hmessage)
  · cases hread : ConfigMessage.ofJson? text with
    | none =>
      have hnone := client.configure_of_eq_none hread
      rw [hnone] at herror ⊢
      obtain rfl := Except.error.inj herror
      rfl
    | some message =>
      -- a message that was read is applied, which does not fail
      rw [configure, hread] at herror
      simp only [run_bind, pure_eq, run_done] at herror
      cases herror

/-- A message with all members is taken over as it was written, one with a number too large for its
word changes nothing, and neither does a text that is not a configuration. -/
theorem configure_all_or_nothing_texts :
    let bench := Bench.unscripted (StillClock.mk 1000)
    let client := Client.new ⟨"bridge", 443, "project", "region", "kits", "kit"⟩ 10
    let message : ConfigMessage := ⟨some [(20, 700), (30, 2500)], some ⟨3000, 60⟩, some 5000⟩
    let reordered :=
      Bytes.ofText "\x7b\"update-rate\":5000,\"override\":\x7b\"duration\":60,\"fan-speed\":3000" ++
        Bytes.ofText "\x7d,\"fan-speed-map\":[[20,700],[30,2500]]\x7d"
    let tooLarge := Bytes.ofText "\x7b\"update-rate\":4294967296\x7d"
    ((client.configure reordered).run Bench.environment bench).1 =
        (.ok (), client.configured message 1000) ∧
      client.configure tooLarge = (return (.error .parse, client)) ∧
      client.configure (Bytes.ofText "update-rate=5") = (return (.error .parse, client)) := by
  intro bench client message reordered tooLarge
  obtain ⟨hread, hrefused, hunchanged⟩ :=
    configure_all_or_nothing Bench.environment bench client
  refine ⟨?_, hrefused ⟨none, none, some UInt32.size⟩ (fun h => ?_) _ ?_, hunchanged _ _ ?_⟩
  -- the members stand in the reverse order, within the override as well
  · have hshort : ∀ pairs ∈ message.speedMap, pairs.length ≤ SpeedMap.entriesMax := by
      rintro pairs ⟨⟩
      decide
    refine ((hread message hshort).2 reordered ⟨List.reverse, _, List.reverse_perm,
      List.reverse_perm _, ?_⟩).1
    have htext : reordered = (Json.objectTokens ((message.written.members
        List.reverse).reverse.map ConfigMember.tokens)).flatten := by decide +kernel
    rw [htext]
    exact Json.spaced_flatten _
  · exact absurd (h.rate_lt _ rfl) (Nat.lt_irrefl _)
  · refine ⟨id, _, fun _ => .rfl, .rfl, ?_⟩
    have htext : tooLarge = (Json.objectTokens ((WrittenConfig.members
        ⟨none, none, some UInt32.size⟩ id).map ConfigMember.tokens)).flatten := by decide +kernel
    rw [htext]
    exact Json.spaced_flatten _
  · rfl

end SecureKit.Client

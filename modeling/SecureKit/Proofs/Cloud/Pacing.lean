import SecureKit.Proofs.Cloud.Session

/-!
# The Pace of the Client

The client has one wait for all its pauses. A step that arms it is followed by the step it waits for
only after as many ticks as it was armed for: until then the client stays in its state and leaves
the wait alone, whatever is configured in between, and only a change of the state cuts it short.

* `Client.Pacing` — a pause of the client, from the step that starts it to the one that ends it.
* `Client.Pacing.Kept.turn` — what happens next keeps a pause.
* `Client.session_paced` — telemetry, requests for the time and connections are paced in every run.
-/

namespace SecureKit

open Program

namespace Client

/-- The ticks for which a wait with a tick of `period` milliseconds is held when it is armed for a
duration that is not zero. A period of zero counts as one. -/
def waitTicks (period duration : Nat) : Nat := max 1 (duration / max period 1)

namespace Occurrence

/-- A tick of the wait. -/
def isTick : Occurrence → Bool
  | tick => true
  | _ => false

/-- The client is in one state before and after. -/
def StaysIn (phase : Phase) : Occurrence → Prop
  | step before _ after => before.phase = phase ∧ after.phase = phase
  | configure _ | tick | other => True

end Occurrence

/-- The number of ticks in a history. -/
def ticks (history : List Occurrence) : Nat := history.countP Occurrence.isTick

/-- In a history, two occurrences stand in this order with `between` between them. -/
def Between (history : List Occurrence) (first : Occurrence) (between : List Occurrence)
    (second : Occurrence) : Prop :=
  ∃ earlier later, history = earlier ++ first :: between ++ second :: later

/-- A call is made. -/
def Makes (call : Call) (events : List Event) : Prop := ∃ event ∈ events, event.call = call

/-- The session could not be opened, for another reason than the identity. -/
def FailsToConnect (client : Client) (events : List Event) : Prop :=
  ∃ clientId topic error, Opening client.identity clientId topic events (.error error) ∧
    ∀ cause, error ≠ .identity cause

/-- An attempt to open the session: there is a connection to open, or the identity turns out to be
unusable. -/
def AttemptsToConnect (before : Client) (events : List Event) (after : Client) : Prop :=
  (∃ host port, Makes (.openSocket host port) events) ∨
    before.phase = .connect ∧ after.phase = .error

/-- What all clients have in common that are reached from a new one with a wait of tick `period`. -/
structure Sound (period : Nat) (client : Client) : Prop where
  /-- The tick of the wait is that of the start. -/
  period_eq : client.wait.period = max period 1
  /-- The telemetry period is not too short. -/
  updatePeriod_gt : periodMin < client.updatePeriod

theorem sound_new (identity : Identity) (period : Nat) : (new identity period).Sound period :=
  ⟨rfl, show periodMin < defaultPeriod by decide⟩

/-- A pause lasts for the ticks of its duration. -/
theorem Sound.waitTicks_le {period duration : Nat} {client : Client} (h : client.Sound period)
    (hduration : duration ≠ 0) :
    waitTicks period duration ≤ (client.pause duration).wait.remaining := by
  refine Nat.le_of_eq ?_
  rw [pause, Holdoff.remaining_arm, Holdoff.ticksFor, if_neg hduration, h.period_eq, waitTicks,
    Nat.max_comm]

/-- The period between two updates is never zero. -/
theorem Sound.updatePeriod_ne_zero {period : Nat} {client : Client} (h : client.Sound period) :
    client.updatePeriod.toNat ≠ 0 := by
  have hgt : periodMin.toNat < client.updatePeriod.toNat := UInt32.lt_iff_toNat_lt.1 h.2
  omega

/-- Publishing telemetry changes the message number at most. -/
theorem Publication.client_eq {client client' : Client} {events : List Event}
    (h : client.Publication events client') :
    client' = { client with messageId := client'.messageId } := by
  cases h <;> rfl

theorem Reconfigured.sound {period : Nat} {client client' : Client} {events : List Event}
    (h : client.Reconfigured events client') (hsound : client.Sound period) :
    client'.Sound period := by
  rw [h.client_eq]
  refine ⟨hsound.period_eq, ?_⟩
  rcases h.updatePeriod with hsame | hgt
  · exact hsame ▸ hsound.updatePeriod_gt
  · exact hgt

section Opening

variable {identity : Identity} {clientId topic clientId' topic' : String} {events : List Event}
  {result result' : Except CloudError Unit}

/-- Every attempt to open a session makes a connection to the host. -/
theorem Opening.makes_openSocket (h : Opening identity clientId topic events result) :
    Makes (.openSocket identity.host identity.port) events := by
  cases h <;> simp [Makes, signing]

/-- The calls of an attempt to open the session tell its result. -/
theorem Opening.result_unique (h : Opening identity clientId topic events result)
    (h' : Opening identity clientId' topic' events result') : result = result' := by
  generalize hevents : events = events' at h'
  -- two ways with as many calls differ in what the last one has answered
  cases h <;> cases h' <;> simp_all [signing]

end Opening

namespace Course

variable {client client' : Client} {events : List Event} {period : Nat}

/-- A step keeps a client sound. -/
theorem sound (h : client.Course events client') (hsound : client.Sound period) :
    client'.Sound period := by
  cases h with
  | start => exact ⟨hsound.period_eq, show periodMin < defaultPeriod by decide⟩
  | opening _ _ _ _ _ _ _ result =>
    match result with
    | .ok () | .error (.identity _) | .error .network | .error .token | .error .serialize
    | .error .parse | .error (.fan _) => exact ⟨hsound.period_eq, hsound.updatePeriod_gt⟩
  | received _ _ _ _ _ hclient => exact hclient.sound hsound
  | publication _ _ _ _ hpublication =>
    rw [hpublication.client_eq]
    exact ⟨hsound.period_eq, hsound.updatePeriod_gt⟩
  | _ => exact ⟨hsound.period_eq, hsound.updatePeriod_gt⟩

/-- A wait that is held is left alone by a step that does not change the state. -/
theorem wait_eq_of_held (h : client.Course events client') (hheld : client.wait.held = true)
    (hphase : client'.phase = client.phase) : client'.wait = client.wait := by
  cases h with
  | paused | idle => rfl
  | received _ _ _ _ _ hclient => rw [hclient.client_eq]
  | start hstate | lost hstate | error hstate => simp [hstate] at hphase
  -- the steps that arm the wait are those made while it is not held
  | timeMissing _ hreleased | timeKnown _ hreleased | unusable _ hreleased | opening _ hreleased
  | publication _ hreleased => exact absurd (hreleased.symm.trans hheld) nofun

/-- A client that waits for the time, or to open the session, does nothing else. -/
theorem phase_eq_of_held (h : client.Course events client') (hheld : client.wait.held = true)
    (hphase : client.phase = .getTime ∨ client.phase = .connect) :
    client'.phase = client.phase := by
  cases h with
  | paused => rfl
  | timeMissing _ hreleased | timeKnown _ hreleased | unusable _ hreleased
  | opening _ hreleased | publication _ hreleased => exact absurd (hreleased.symm.trans hheld) nofun
  | start hstate | lost hstate | idle hstate | received hstate | error hstate =>
    simp [hstate] at hphase

/-- Only publishing telemetry takes the temperature. It arms the wait for the telemetry period. -/
theorem of_temperature (h : client.Course events client') (hmakes : Makes .temperature events) :
    client.wait.held = false ∧ client'.phase = .run ∧
      client'.wait = (client.pause client.updatePeriod.toNat).wait := by
  cases h with
  | publication hphase hheld _ _ hpublication =>
    rw [hpublication.client_eq]
    exact ⟨hheld, hphase, rfl⟩
  | opening _ _ _ _ _ _ _ _ hopening => cases hopening <;> simp [Makes, signing] at hmakes
  | received _ _ _ _ _ hclient =>
    obtain rfl | ⟨now, rfl⟩ := hclient.events_eq <;> simp [Makes] at hmakes
  | _ => simp [Makes] at hmakes

/-- Only a client to which the time is not known asks for it. It arms the wait. -/
theorem of_requestTime (h : client.Course events client') (hmakes : Makes .requestTime events) :
    client.phase = .getTime ∧ client.wait.held = false ∧ client' = client.pause timeWait := by
  cases h with
  | timeMissing hphase hheld => exact ⟨hphase, hheld, rfl⟩
  | opening _ _ _ _ _ _ _ _ hopening => cases hopening <;> simp [Makes, signing] at hmakes
  | received _ _ _ _ _ hclient =>
    obtain rfl | ⟨now, rfl⟩ := hclient.events_eq <;> simp [Makes] at hmakes
  | publication _ _ _ _ hpublication => cases hpublication <;> simp [Makes] at hmakes
  | _ => simp [Makes] at hmakes

/-- A connection is opened to open the session. -/
theorem of_openSocket (h : client.Course events client') {host : String} {port : UInt16}
    (hmakes : Makes (.openSocket host port) events) :
    client.phase = .connect ∧ client.wait.held = false ∧
      ∃ clientId topic result, Opening client.identity clientId topic events result ∧
        client' = client.afterOpening result := by
  cases h with
  | opening hphase hheld clientId topic _ _ _ result hopening =>
    exact ⟨hphase, hheld, clientId, topic, result, hopening, rfl⟩
  | received _ _ _ _ _ hclient =>
    obtain rfl | ⟨now, rfl⟩ := hclient.events_eq <;> simp [Makes] at hmakes
  | publication _ _ _ _ hpublication => cases hpublication <;> simp [Makes] at hmakes
  | _ => simp [Makes] at hmakes

/-- An attempt that has failed arms the wait, and the session is still to be opened. -/
theorem of_failsToConnect (h : client.Course events client')
    (hfails : client.FailsToConnect events) :
    client.phase = .connect ∧ client' = client.pause connectRetry := by
  obtain ⟨_, _, error, hfailed, hcause⟩ := hfails
  -- the step that makes these calls is an attempt, and ends with the same result
  obtain ⟨hphase, -, _, _, result, hopening, rfl⟩ := h.of_openSocket hfailed.makes_openSocket
  obtain rfl := hopening.result_unique hfailed
  refine ⟨hphase, ?_⟩
  cases error with
  | identity cause => exact absurd rfl (hcause cause)
  | _ => rfl

/-- There is no attempt to open the session as long as the client waits. -/
theorem released_of_attemptsToConnect (h : client.Course events client')
    (hattempts : AttemptsToConnect client events client') : client.wait.held = false := by
  rcases hattempts with ⟨host, port, hmakes⟩ | ⟨hbefore, hafter⟩
  · exact (h.of_openSocket hmakes).2.1
  · cases h with
    | unusable _ hheld | opening _ hheld | timeMissing _ hheld | timeKnown _ hheld
    | publication _ hheld => exact hheld
    | paused => exact absurd (hbefore.symm.trans hafter) nofun
    | start hphase | lost hphase | idle hphase | received hphase | error hphase =>
      exact absurd (hphase.symm.trans hbefore) nofun

/-- A step of an open session that finds no network error while the client waits fetches a message,
once, and asks for nothing but the time besides. -/
theorem polls_of_held (h : client.Course events client') (hphase : client.phase = .run)
    (hheld : client.wait.held = true) (hlost : ⟨.hasError, true⟩ ∉ events) :
    ∃ reply rest, events = ⟨.hasError, false⟩ :: ⟨.pollMessage messageRoom, reply⟩ :: rest ∧
      (rest = [] ∨ ∃ now, rest = [⟨.utc, now⟩]) := by
  cases h with
  | idle _ _ reply => exact ⟨reply, [], rfl, .inl rfl⟩
  | received _ _ delivery events _ hclient =>
    exact ⟨.ok (some delivery), events, rfl, hclient.events_eq⟩
  | lost => exact absurd List.mem_cons_self hlost
  | timeMissing _ hreleased | timeKnown _ hreleased | unusable _ hreleased | opening _ hreleased
  | publication _ hreleased => exact absurd (hreleased.symm.trans hheld) nofun
  | paused hstate => rcases hstate with hstate | hstate <;> simp [hstate] at hphase
  | start hstate | error hstate => simp [hstate] at hphase

end Course

/-- A pause of the client. The step that starts it leaves the client in a state with the wait armed,
and the step that ends it is not made while the wait is held. -/
structure Pacing (period : Nat) where
  /-- The state in which the client waits. -/
  phase : Phase
  /-- The ticks that the pause lasts, from the client before the step that starts it. -/
  span : Client → Nat
  /-- The step that starts the pause. -/
  Starts : Client → List Event → Prop
  /-- The step that ends the pause. -/
  Ends : Client → List Event → Client → Prop
  /-- What may happen meanwhile. -/
  Keeps : Occurrence → Prop
  /-- A step that starts the pause arms the wait. -/
  starts : ∀ {before after : Client} {events : List Event}, before.Sound period →
    before.Course events after → Starts before events →
      after.phase = phase ∧ span before ≤ after.wait.remaining
  /-- A step that ends the pause is not made while the wait is held. -/
  ends : ∀ {before after : Client} {events : List Event}, before.Course events after →
    Ends before events after → before.wait.held = false
  /-- A client that waits stays in its state. -/
  keeps : ∀ {before after : Client} {events : List Event}, before.Course events after →
    before.phase = phase → before.wait.held = true → Keeps (.step before events after) →
      after.phase = phase

/-- The pause after an attempt to publish telemetry, in one stay in the open session. -/
def telemetryPacing (period : Nat) : Pacing period where
  phase := .run
  span := fun before => waitTicks period before.updatePeriod.toNat
  Starts := fun _ events => Makes .temperature events
  Ends := fun _ events _ => Makes .temperature events
  Keeps := Occurrence.StaysIn .run
  starts := by
    intro before after events hsound hcourse hmakes
    obtain ⟨-, hphase, hwait⟩ := hcourse.of_temperature hmakes
    refine ⟨hphase, ?_⟩
    rw [hwait]
    exact hsound.waitTicks_le hsound.updatePeriod_ne_zero
  ends := fun hcourse hmakes => (hcourse.of_temperature hmakes).1
  keeps := fun _ _ _ hstays => hstays.2

/-- The pause after a request for the time. -/
def timePacing (period : Nat) : Pacing period where
  phase := .getTime
  span := fun _ => waitTicks period timeWait
  Starts := fun _ events => Makes .requestTime events
  Ends := fun _ events _ => Makes .requestTime events
  Keeps := fun _ => True
  starts := by
    intro before after events hsound hcourse hmakes
    obtain ⟨hphase, -, rfl⟩ := hcourse.of_requestTime hmakes
    exact ⟨hphase, hsound.waitTicks_le (by decide)⟩
  ends := fun hcourse hmakes => (hcourse.of_requestTime hmakes).2.1
  keeps := fun hcourse hphase hheld _ => (hcourse.phase_eq_of_held hheld (.inl hphase)).trans hphase

/-- The pause after an attempt to open the session that has failed. -/
def retryPacing (period : Nat) : Pacing period where
  phase := .connect
  span := fun _ => waitTicks period connectRetry
  Starts := FailsToConnect
  Ends := AttemptsToConnect
  Keeps := fun _ => True
  starts := by
    intro before after events hsound hcourse hfails
    obtain ⟨hphase, rfl⟩ := hcourse.of_failsToConnect hfails
    exact ⟨hphase, hsound.waitTicks_le (by decide)⟩
  ends := fun hcourse hattempts => hcourse.released_of_attemptsToConnect hattempts
  keeps := fun hcourse hphase hheld _ => (hcourse.phase_eq_of_held hheld (.inr hphase)).trans hphase

@[simp]
theorem ticks_concat_tick (history : List Occurrence) :
    ticks (history ++ [.tick]) = ticks history + 1 := by
  simp [ticks, Occurrence.isTick]

/-- More history has no fewer ticks. -/
theorem ticks_le_append (history later : List Occurrence) :
    ticks history ≤ ticks (history ++ later) := by
  rw [ticks, ticks, List.countP_append]
  exact Nat.le_add_right _ _

/-- An element of a longer list is the last one, or one of the shorter list. -/
theorem concat_eq_append_cons {α : Type} {front before after : List α} {last a : α}
    (h : front ++ [last] = before ++ a :: after) :
    (before = front ∧ a = last ∧ after = []) ∨
      ∃ between, after = between ++ [last] ∧ front = before ++ a :: between := by
  rcases List.eq_nil_or_concat after with rfl | ⟨between, last', rfl⟩
  · obtain ⟨hfront, hlast⟩ := List.append_inj' h rfl
    exact .inl ⟨hfront.symm, (List.cons.inj hlast).1.symm, rfl⟩
  · rw [List.concat_eq_append, ← List.cons_append, ← List.append_assoc] at h
    obtain ⟨hfront, hlast⟩ := List.append_inj' h rfl
    exact .inr ⟨between, by rw [List.concat_eq_append, (List.cons.inj hlast).1], hfront⟩

theorem Sound.turn {period : Nat} {client client' : Client} {occurrence : Occurrence}
    (h : client.Sound period) (hturn : occurrence.Turns client client') :
    client'.Sound period := by
  cases hturn with
  | step events after hcourse => exact hcourse.sound h
  | configure events after hclient => exact hclient.sound h
  | tick | other => exact ⟨h.period_eq, h.updatePeriod_gt⟩

namespace Pacing

variable {σ : Type} {period : Nat} {pacing : Pacing period}

/-- A pause that was started is over, or the client waits for the rest of it. -/
def Pending (pacing : Pacing period) (before client : Client) (since : List Occurrence) : Prop :=
  pacing.span before ≤ ticks since ∨
    client.phase = pacing.phase ∧ pacing.span before ≤ ticks since + client.wait.remaining

/-- A pause that the client does not wait for any more is over. -/
theorem Pending.le_ticks {before client : Client} {since : List Occurrence}
    (h : pacing.Pending before client since) (hheld : client.wait.held = false) :
    pacing.span before ≤ ticks since := by
  rw [Holdoff.held_eq_false_iff] at hheld
  rcases h with hover | ⟨-, hrest⟩
  · exact hover
  · rwa [hheld] at hrest

/-- What happens next takes no more from a pause than the tick that it may be. -/
theorem Pending.turn {before client client' : Client} {since : List Occurrence}
    {occurrence : Occurrence} (h : pacing.Pending before client since)
    (hturn : occurrence.Turns client client') (hkeeps : pacing.Keeps occurrence) :
    pacing.Pending before client' (since ++ [occurrence]) := by
  have hmore := ticks_le_append since [occurrence]
  -- a pause that is over stays so; in one that is not, the wait stands for the ticks that are left
  by_cases hover : pacing.span before ≤ ticks since
  · exact .inl (Nat.le_trans hover hmore)
  obtain ⟨hphase, hrest⟩ := h.resolve_left hover
  cases hturn with
  | step events after hcourse =>
    -- the pause is not over, so the wait is held, and the step leaves it alone
    have hheld : client.wait.held = true := by
      rw [Holdoff.held_eq_true_iff]
      omega
    have hstays := pacing.keeps hcourse hphase hheld hkeeps
    have hwait := hcourse.wait_eq_of_held hheld (hstays.trans hphase.symm)
    exact .inr ⟨hstays, by rw [hwait]; omega⟩
  | configure events after hclient =>
    rw [hclient.client_eq]
    exact .inr ⟨hphase, Nat.le_trans hrest (Nat.add_le_add_right hmore _)⟩
  | tick =>
    refine .inr ⟨hphase, ?_⟩
    rw [ticks_concat_tick, Holdoff.remaining_tick]
    omega
  | other fan => exact .inr ⟨hphase, Nat.le_trans hrest (Nat.add_le_add_right hmore _)⟩

/-- A pause is kept in a history that has led to a client. -/
structure Kept (pacing : Pacing period) (history : List Occurrence) (client : Client) : Prop where
  sound : client.Sound period
  /-- A pause that was started is over, or the client waits. -/
  pending : ∀ {earlier since : List Occurrence} {before after : Client} {events : List Event},
    history = earlier ++ .step before events after :: since → pacing.Starts before events →
      (∀ entry ∈ since, pacing.Keeps entry) → pacing.Pending before client since
  /-- A pause that has ended was over. -/
  apart : ∀ {between : List Occurrence} {before after before' after' : Client}
    {events events' : List Event},
    Between history (.step before events after) between (.step before' events' after') →
      pacing.Starts before events → pacing.Ends before' events' after' →
        (∀ entry ∈ between, pacing.Keeps entry) → pacing.span before ≤ ticks between

/-- Nothing has happened to a new client, so no pause was started. -/
theorem kept_new (pacing : Pacing period) (identity : Identity) :
    pacing.Kept [] (.new identity period) where
  sound := sound_new identity period
  pending := fun hhistory => absurd hhistory (by simp)
  apart := fun ⟨earlier, later, hhistory⟩ => absurd hhistory (by simp)

/-- What happens next keeps a pause. -/
theorem Kept.turn {history : List Occurrence} {client client' : Client} {occurrence : Occurrence}
    (h : pacing.Kept history client) (hturn : occurrence.Turns client client') :
    pacing.Kept (history ++ [occurrence]) client' where
  sound := h.sound.turn hturn
  pending := by
    intro earlier since before after events hhistory hstarts hkeeps
    rcases concat_eq_append_cons hhistory with ⟨-, rfl, rfl⟩ | ⟨since, rfl, hearlier⟩
    · -- the pause starts with this step
      cases hturn with
      | step _ _ hcourse =>
        obtain ⟨hphase, hspan⟩ := pacing.starts h.sound hcourse hstarts
        exact .inr ⟨hphase, Nat.le_trans hspan (Nat.le_add_left _ _)⟩
    · have hpending := h.pending hearlier hstarts fun entry hentry =>
        hkeeps entry (List.mem_append_left _ hentry)
      exact hpending.turn hturn (hkeeps occurrence List.mem_concat_self)
  apart := by
    rintro between before after before' after' events events' ⟨earlier, later, hhistory⟩ hstarts
      hends hkeeps
    rcases concat_eq_append_cons hhistory with ⟨hearlier, rfl, rfl⟩ | ⟨later, rfl, hearlier⟩
    · -- the pause ends with this step, so the wait was not held any more
      cases hturn with
      | step _ _ hcourse =>
        exact (h.pending hearlier.symm hstarts hkeeps).le_ticks (pacing.ends hcourse hends)
    · exact h.apart ⟨earlier, later, hearlier⟩ hstarts hends hkeeps

end Pacing

namespace Session

variable {σ : Type}

/-- A session in which the client keeps its pace, on a wait with a tick of `period` milliseconds. -/
structure Paced (period : Nat) (session : Session σ) : Prop where
  /-- The telemetry period is above the smallest. -/
  updatePeriod_gt : periodMin < session.client.updatePeriod
  /-- Between two attempts to publish telemetry in one stay in the open session, the telemetry
  period of the first passes. -/
  telemetry : ∀ {between : List Occurrence} {before after before' after' : Client}
    {events events' : List Event},
    Between session.history (.step before events after) between (.step before' events' after') →
      Makes .temperature events → Makes .temperature events' →
        (∀ entry ∈ between, entry.StaysIn .run) →
          waitTicks period before.updatePeriod.toNat ≤ ticks between
  /-- Meanwhile each step that finds no network error fetches a message, once, and asks for nothing
  but the time besides. -/
  polling : ∀ {before after : Client} {events : List Event},
    .step before events after ∈ session.history → before.phase = .run →
      before.wait.held = true → ⟨.hasError, true⟩ ∉ events →
        ∃ reply rest, events = ⟨.hasError, false⟩ :: ⟨.pollMessage messageRoom, reply⟩ :: rest ∧
          (rest = [] ∨ ∃ now, rest = [⟨.utc, now⟩])
  /-- Between two requests for the time, `timeWait` passes. -/
  timeRequests : ∀ {between : List Occurrence} {before after before' after' : Client}
    {events events' : List Event},
    Between session.history (.step before events after) between (.step before' events' after') →
      Makes .requestTime events → Makes .requestTime events' →
        waitTicks period timeWait ≤ ticks between
  /-- Between an attempt to open the session that has failed for another reason than the identity
  and any attempt after it, `connectRetry` passes. -/
  retries : ∀ {between : List Occurrence} {before after before' after' : Client}
    {events events' : List Event},
    Between session.history (.step before events after) between (.step before' events' after') →
      before.FailsToConnect events → AttemptsToConnect before' events' after' →
        waitTicks period connectRetry ≤ ticks between

end Session

/-- The client keeps its pace in every run. -/
theorem session_paced {σ : Type} (environment : Environment σ) (identity : Identity)
    (period : Nat) (peripherals : σ) (actions : List (Action σ)) :
    ((Session.start identity period peripherals).run environment actions).Paced period := by
  have hkept : ∀ pacing : Pacing period, pacing.Kept
      ((Session.start identity period peripherals).run environment actions).history
      ((Session.start identity period peripherals).run environment actions).client := by
    intro pacing
    exact Session.run_induction environment identity period peripherals actions
      (pacing.kept_new identity) fun _ _ _ _ h hturn => h.turn hturn
  constructor
  · exact (hkept (timePacing period)).sound.updatePeriod_gt
  · exact (hkept (telemetryPacing period)).apart
  · intro before after events hmem
    have hcourse := Session.course_of_mem_history environment identity period peripherals actions
      hmem
    exact hcourse.polls_of_held
  · exact fun hbetween hfirst hsecond =>
      (hkept (timePacing period)).apart hbetween hfirst hsecond fun _ _ => trivial
  · exact fun hbetween hfirst hsecond =>
      (hkept (retryPacing period)).apart hbetween hfirst hsecond fun _ _ => trivial

end Client

end SecureKit

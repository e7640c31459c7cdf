import SecureKit.Proofs.Cloud.Numbering

/-!
# The Names of the Client

The client goes by names that are derived from its identity: one of its own and one for each of its
two topics. A name that is too long is refused as a whole, and the names are looked at before
anything is sent. As the client name is the longest of them, an identity is found unusable before
its first connection or never.

* `Identity.utf8ByteSize_topicName_le` — a topic is no longer than the client name.
* `Client.Course.barred` — a step of a client whose name is too long.
* `Client.Course.carries` — the names in the calls of a step.
* `Client.session_named` — what becomes of the names in every run.
-/

namespace SecureKit

open Program

namespace Identity

/-- A derived text is given in full if it is not too long, and refused as too long otherwise. -/
structure Derives (result : Except IdentityError String) (text : String) : Prop where
  given : ∀ name, result = .ok name ↔ text.utf8ByteSize ≤ identifierMax ∧ text = name
  refused : ∀ error, result = .error error ↔
    identifierMax < text.utf8ByteSize ∧ error = .tooLong

/-- A text is given in full if it is within the bound, and refused otherwise. -/
theorem derives_bounded (text : String) : Derives (bounded text) text where
  given _ := bounded_eq_ok_iff
  refused _ := bounded_eq_error_iff

/-- The client name is not too long. -/
def Usable (identity : Identity) : Prop := identity.clientName.utf8ByteSize ≤ identifierMax

/-- The client name has 41 bytes besides those of the identity. -/
theorem utf8ByteSize_clientName (identity : Identity) :
    identity.clientName.utf8ByteSize =
      41 + identity.projectId.utf8ByteSize + identity.regionId.utf8ByteSize +
        identity.registryId.utf8ByteSize + identity.deviceId.utf8ByteSize := by
  have hwords : "projects/".utf8ByteSize = 9 ∧ "/locations/".utf8ByteSize = 11 ∧
      "/registries/".utf8ByteSize = 12 ∧ "/devices/".utf8ByteSize = 9 := by decide
  simp only [clientName, String.utf8ByteSize_append, hwords]
  omega

/-- The name of a device stands in its client name as well, among words that are longer than those
of a topic. -/
theorem utf8ByteSize_topicName_le (identity : Identity) {leaf : String}
    (h : leaf.utf8ByteSize ≤ 31) :
    (identity.topicName leaf).utf8ByteSize ≤ identity.clientName.utf8ByteSize := by
  have hwords : "/devices/".utf8ByteSize = 9 ∧ "/".utf8ByteSize = 1 := by decide
  rw [utf8ByteSize_clientName]
  simp only [topicName, String.utf8ByteSize_append, hwords]
  omega

/-- All topics of a usable identity fit. -/
theorem Usable.bounded_topicName {identity : Identity} (h : identity.Usable) {leaf : String}
    (hleaf : leaf.utf8ByteSize ≤ 31) :
    bounded (identity.topicName leaf) = .ok (identity.topicName leaf) :=
  bounded_eq_ok_iff.2 ⟨Nat.le_trans (identity.utf8ByteSize_topicName_le hleaf) h, rfl⟩

end Identity

/-- A call that opens a session, or a part of it, or publishes in it. -/
def Call.NeedsIdentity : Call → Prop
  | .openSocket _ _ | .sign _ _ | .connect _ | .subscribe _ | .publish _ _ _ => True
  | _ => False

/-- The names in a call are those of an identity. -/
def Call.Carries (identity : Identity) : Call → Prop
  | .connect login => login.clientId = identity.clientName
  | .subscribe topic => topic = identity.topicName "config"
  | .publish topic _ _ => topic = identity.topicName "events"
  | _ => True

/-- The failure of a session operation, if it has failed. -/
def CloudError.ofResult? {α : Type} : Except CloudError α → Option CloudError
  | .ok _ => none
  | .error error => some error

/-- The failure a call of the session was answered with, if any. -/
def Event.cloudError? : Event → Option CloudError
  | ⟨.openSocket _ _, reply⟩ | ⟨.connect _, reply⟩ | ⟨.subscribe _, reply⟩
  | ⟨.publish _ _ _, reply⟩ => CloudError.ofResult? reply
  | ⟨.sign _ _, reply⟩ => CloudError.ofResult? reply
  | ⟨.pollMessage _, reply⟩ => CloudError.ofResult? reply
  | _ => none

namespace Client

/-- The identity is not to blame for a failure: a result that says so is the answer to the last
call. -/
def Blameless (events : List Event) (result : Except CloudError Unit) : Prop :=
  ∀ cause, result = .error (.identity cause) →
    ∃ front event, events = front ++ [event] ∧ event.cloudError? = some (.identity cause)

/-- The identity is not to blame for a failure that the last call was answered with. -/
theorem blameless_concat {event : Event} {result : Except CloudError Unit} (front : List Event)
    (h : event.cloudError? = CloudError.ofResult? result) :
    Blameless (front ++ [event]) result := by
  rintro cause rfl
  exact ⟨front, event, rfl, h⟩

section Names

variable {identity : Identity} {clientId topic : String} {events : List Event}
  {result : Except CloudError Unit} {client client' : Client}

/-- With both names at hand, opening the session fails with the answer to its last call, or because
of the token. -/
theorem Opening.blameless (h : Opening identity clientId topic events result) :
    Blameless events result := by
  cases h with
  | unreachable => exact blameless_concat [] rfl
  | unsigned => exact blameless_concat [_, _] rfl
  | unreadable => rintro cause ⟨⟩
  | refused => exact blameless_concat _ rfl
  | accepted => exact blameless_concat [_, _, _, _] rfl

/-- With a topic at hand, publishing fails because of the measurement, or with the answer to its
last call. -/
theorem blameless_publishTelemetry (htopic : client.identity.publishTopic = .ok topic) :
    client.publishTelemetry.Ensures fun events result => Blameless events result.1 := by
  rw [publishTelemetry, run_measure, call_bind, ensures_call]
  intro now
  rw [call_bind, ensures_call]
  rintro (error | temperature)
  · rintro cause ⟨⟩
  dsimp only
  rw [call_bind, ensures_call]
  rintro (error | fanSpeed)
  · rintro cause ⟨⟩
  rw [done_bind, htopic]
  cases Json.fitting? messageRoom (Telemetry.json ⟨now, temperature.toInt, fanSpeed⟩) with
  | none => rintro cause ⟨⟩
  | some payload =>
    exact fun reply => blameless_concat [_, _, _] rfl

/-- The session is opened under the client name, for the topic of configurations. -/
theorem Opening.carries (h : Opening identity clientId topic events result)
    (hclientId : identity.clientId = .ok clientId)
    (htopic : identity.subscribeTopic = .ok topic) :
    ∀ event ∈ events, event.call.Carries identity := by
  obtain ⟨-, rfl⟩ := Identity.bounded_eq_ok_iff.1 hclientId
  obtain ⟨-, rfl⟩ := Identity.bounded_eq_ok_iff.1 htopic
  cases h <;> simp [signing, Call.Carries, Login.ofToken]

/-- Telemetry is published under the topic of events. -/
theorem Publication.carries (h : client.Publication events client') :
    ∀ event ∈ events, event.call.Carries client.identity := by
  cases h with
  | published _ _ _ _ _ topic htopic =>
    obtain ⟨-, rfl⟩ := Identity.bounded_eq_ok_iff.1 htopic
    simp [Call.Carries]
  | _ => simp [Call.Carries]

/-- A configuration message makes no call but for the time. -/
theorem Reconfigured.forall_call {p : Call → Prop} (h : client.Reconfigured events client')
    (hutc : p .utc) : ∀ event ∈ events, p event.call := by
  obtain rfl | ⟨now, rfl⟩ := h.events_eq <;> simp [hutc]

/-- The names in the calls of a step are those of the identity. -/
theorem Course.carries (h : client.Course events client') :
    ∀ event ∈ events, event.call.Carries client.identity := by
  cases h with
  | opening _ _ _ _ hclientId htopic _ _ hopening => exact hopening.carries hclientId htopic
  | received _ _ _ _ _ hclient =>
    simpa [Call.Carries] using hclient.forall_call (p := Call.Carries client.identity) trivial
  | publication _ _ _ _ hpublication => simpa [Call.Carries] using hpublication.carries
  | _ => simp [Call.Carries]

/-- A client whose name is too long does not get out of the states in which there is no session:
what it does needs no identity, and an attempt to open a session ends in the error state. -/
theorem Course.barred (h : client.Course events client') (hlong : ¬client.identity.Usable)
    (hphase : client.phase ≠ .run) :
    (∀ event ∈ events, ¬event.call.NeedsIdentity) ∧ client'.phase ≠ .run ∧
      (client.phase = .connect → client.wait.held = false → client'.phase = .error) := by
  cases h with
  | start hstart =>
    exact ⟨List.forall_mem_nil _, nofun, fun hconnect => absurd (hstart.symm.trans hconnect) nofun⟩
  | paused _ hheld =>
    exact ⟨List.forall_mem_nil _, hphase, fun _ hreleased =>
      absurd (hheld.symm.trans hreleased) nofun⟩
  | timeMissing htime | timeKnown htime =>
    exact ⟨by simp [Call.NeedsIdentity], by simp [htime], by simp [htime]⟩
  | unusable => exact ⟨List.forall_mem_nil _, nofun, fun _ _ => rfl⟩
  | opening _ _ _ _ hclientId =>
    -- the client has no name under which it could open a session
    exact absurd (Identity.bounded_eq_ok_iff.1 hclientId).1 hlong
  | lost hrun | idle hrun | received hrun | publication hrun => exact absurd hrun hphase
  | error herror =>
    exact ⟨List.forall_mem_nil _, nofun, fun hconnect => absurd (herror.symm.trans hconnect) nofun⟩

end Names

/-- Nothing is called that needs the identity, and an attempt to open a session ends in the error
state. -/
structure Occurrence.Barred (occurrence : Occurrence) : Prop where
  silent : ∀ event ∈ occurrence.events, ¬event.call.NeedsIdentity
  attempt : ∀ before events after, occurrence = .step before events after →
    before.phase = .connect → before.wait.held = false → after.phase = .error

section Turns

variable {client client' : Client} {occurrence : Occurrence}

theorem Occurrence.Turns.identity_eq (h : occurrence.Turns client client') :
    client'.identity = client.identity := by
  cases h with
  | step _ _ hcourse => exact hcourse.identity_eq
  | configure _ _ hclient => exact hclient.phase_identity_eq.2
  | tick | other => rfl

/-- Every call that carries a name carries that of the identity. -/
theorem Occurrence.Turns.carries (h : occurrence.Turns client client') :
    ∀ event ∈ occurrence.events, event.call.Carries client.identity := by
  cases h with
  | step _ _ hcourse => exact hcourse.carries
  | configure _ _ hclient => exact hclient.forall_call (p := Call.Carries client.identity) trivial
  | tick | other => exact List.forall_mem_nil _

/-- Without a usable identity no call is made that needs one, and the client does not come to
run. -/
theorem Occurrence.Turns.barred (h : occurrence.Turns client client')
    (hlong : ¬client.identity.Usable) (hphase : client.phase ≠ .run) :
    occurrence.Barred ∧ client'.phase ≠ .run := by
  cases h with
  | step events after hcourse =>
    obtain ⟨hsilent, hphase', hattempt⟩ := hcourse.barred hlong hphase
    refine ⟨⟨hsilent, ?_⟩, hphase'⟩
    rintro _ _ _ ⟨⟩
    exact hattempt
  | configure _ _ hclient =>
    have hsilent := hclient.forall_call (p := fun call => ¬call.NeedsIdentity) id
    refine ⟨⟨hsilent, ?_⟩, hclient.phase_identity_eq.1 ▸ hphase⟩
    rintro _ _ _ ⟨⟩
  | tick | other =>
    refine ⟨⟨List.forall_mem_nil _, ?_⟩, hphase⟩
    rintro _ _ _ ⟨⟩

end Turns

namespace Session

variable {σ : Type} (environment : Environment σ) (identity : Identity) (period : Nat)
  (peripherals : σ) (actions : List (Action σ))

/-- The names in all calls of a run are those of the identity. -/
theorem carries_run :
    ∀ occurrence ∈ ((start identity period peripherals).run environment actions).history,
      ∀ event ∈ occurrence.events, event.call.Carries identity := by
  refine (run_induction environment identity period peripherals actions
    (motive := fun history client => client.identity = identity ∧
      ∀ occurrence ∈ history, ∀ event ∈ occurrence.events, event.call.Carries identity)
    ⟨rfl, List.forall_mem_nil _⟩ ?_).2
  rintro history client occurrence client' ⟨rfl, hhistory⟩ hturn
  refine ⟨hturn.identity_eq, fun entry hentry => ?_⟩
  rcases List.mem_append.1 hentry with hentry | hentry
  · exact hhistory entry hentry
  · exact List.mem_singleton.1 hentry ▸ hturn.carries

/-- A client whose name is too long is barred in all of a run. -/
theorem barred_run (hlong : ¬identity.Usable) :
    ∀ occurrence ∈ ((start identity period peripherals).run environment actions).history,
      occurrence.Barred := by
  refine (run_induction environment identity period peripherals actions
    (motive := fun history client => client.identity = identity ∧ client.phase ≠ .run ∧
      ∀ occurrence ∈ history, occurrence.Barred)
    ⟨rfl, nofun, List.forall_mem_nil _⟩ ?_).2.2
  rintro history client occurrence client' ⟨rfl, hphase, hhistory⟩ hturn
  obtain ⟨hbarred, hphase'⟩ := hturn.barred hlong hphase
  refine ⟨hturn.identity_eq, hphase', fun entry hentry => ?_⟩
  rcases List.mem_append.1 hentry with hentry | hentry
  · exact hhistory entry hentry
  · exact List.mem_singleton.1 hentry ▸ hbarred

end Session

/-- What an identity with a usable client name means for a client that has come to a session. -/
structure Admitted {σ : Type} (environment : Environment σ) (identity : Identity)
    (session : Session σ) : Prop where
  /-- The names of both topics are usable as well. -/
  publishTopic : identity.publishTopic = .ok (identity.topicName "events")
  subscribeTopic : identity.subscribeTopic = .ok (identity.topicName "config")
  /-- All logins, subscriptions and messages are made under the names of the identity. -/
  carries : ∀ occurrence ∈ session.history, ∀ event ∈ occurrence.events,
    event.call.Carries identity
  /-- Opening the session does not fail because of the identity. -/
  opens : Blameless
    ((openSession session.client.identity).run.trace environment session.peripherals)
    (Program.run environment (openSession session.client.identity).run session.peripherals).1
  /-- Neither does publishing telemetry. -/
  publishes : Blameless
    (session.client.publishTelemetry.trace environment session.peripherals)
    (session.client.publishTelemetry.run environment session.peripherals).1.1

/-- The names of the client are given in full or refused as too long. If its own name is refused,
nothing that needs the identity is called in any run, and every attempt to open a session ends in
the error state. If it is not, neither are those of the topics, all calls of every run carry the
names, and nothing fails because of the identity. -/
theorem session_named {σ : Type} (environment : Environment σ) (identity : Identity)
    (period : Nat) (peripherals : σ) (actions : List (Action σ)) :
    let session := (Session.start identity period peripherals).run environment actions
    (Identity.Derives identity.clientId identity.clientName ∧
      Identity.Derives identity.publishTopic (identity.topicName "events") ∧
      Identity.Derives identity.subscribeTopic (identity.topicName "config")) ∧
    (identity.clientId = .error .tooLong →
      ∀ occurrence ∈ session.history, occurrence.Barred) ∧
    (identity.clientId = .ok identity.clientName → Admitted environment identity session) := by
  intro session
  refine ⟨⟨Identity.derives_bounded _, Identity.derives_bounded _, Identity.derives_bounded _⟩,
    fun htooLong => ?_, fun hclientId => ?_⟩
  · have hlong := (Identity.bounded_eq_error_iff.1 htooLong).1
    exact Session.barred_run environment identity period peripherals actions
      (Nat.not_le_of_lt hlong)
  -- the names of the topics are no longer than that of the client, so they fit where it does
  · have husable : identity.Usable := (Identity.bounded_eq_ok_iff.1 hclientId).1
    have hpublish : identity.publishTopic = .ok (identity.topicName "events") :=
      husable.bounded_topicName (by decide)
    have hsubscribe : identity.subscribeTopic = .ok (identity.topicName "config") :=
      husable.bounded_topicName (by decide)
    have hidentity : session.client.identity = identity :=
      (Session.tracked_run environment identity period peripherals actions).identity_eq
    refine ⟨hpublish, hsubscribe,
      Session.carries_run environment identity period peripherals actions, ?_, ?_⟩
    · rw [hidentity]
      exact ((ensures_openSession identity hclientId hsubscribe).mono
        fun _ _ h => h.blameless).run environment session.peripherals
    · rw [← hidentity] at hpublish
      exact (blameless_publishTelemetry hpublish).run environment session.peripherals

end Client

end SecureKit

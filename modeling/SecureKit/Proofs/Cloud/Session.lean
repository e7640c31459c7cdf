import SecureKit.Proofs.Cloud.Step

/-!
# Sessions with the Cloud

A client is driven by its steps, by the ticks of its wait and by configuration messages from
elsewhere, in any order, while the fan control and the peripherals may change at any time.

* `Client.Session.run_induction` — what is kept by all that may happen holds of every run.
* `Client.Since` — something has happened, and everything since has kept it.
* `Client.session_ordered` — the order of the calls in every run.
-/

namespace SecureKit

open Program

/-- A call that opens a session, or a part of it. -/
def Call.Establishes : Call → Prop
  | .openSocket _ _ | .connect _ | .subscribe _ => True
  | _ => False

/-- A call that needs an open session. -/
def Call.UsesSession : Call → Prop
  | .publish _ _ _ | .pollMessage _ => True
  | _ => False

namespace Client

/-- What may happen to a client with peripherals of state `σ`. -/
inductive Action (σ : Type) where
  | step
  | tick
  /-- A configuration message is applied. -/
  | configure (json : Bytes)
  /-- The fan control does its own work. -/
  | fan (change : FanControl → FanControl)
  /-- The peripherals change on their own. -/
  | change (change : σ → σ)

/-- What has happened to a client, with the calls that were made. -/
inductive Occurrence where
  | step (before : Client) (events : List Event) (after : Client)
  | configure (events : List Event)
  | tick
  /-- The fan control or the peripherals have changed. -/
  | other

namespace Occurrence

/-- A step that ends with a topic subscribed to. -/
def Subscribes : Occurrence → Prop
  | step _ events _ => ∃ front topic, events = front ++ [⟨.subscribe topic, .ok ()⟩]
  | _ => False

/-- The session stays as it is: a step finds no network error, and no call opens a session. -/
def KeepsSession : Occurrence → Prop
  | step _ events _ =>
    (∃ rest, events = ⟨.hasError, false⟩ :: rest) ∧ ∀ event ∈ events, ¬event.call.Establishes
  | configure events => ∀ event ∈ events, ¬event.call.Establishes
  | tick | other => True

/-- A step that finds the time known, and goes on to open the session. -/
def EntersConnect : Occurrence → Prop
  | step before events after =>
    before.phase = .getTime ∧ after.phase = .connect ∧ ∃ now, events = [⟨.utc, now⟩] ∧ now ≠ 0
  | _ => False

/-- The session is to be opened before and after. -/
def StaysInConnect : Occurrence → Prop
  | step before _ after => before.phase = .connect ∧ after.phase = .connect
  | configure _ | tick | other => True

end Occurrence

/-- In a history, in which what came last stands last, something has happened, and everything since
has kept it. -/
def Since (happened keeps : Occurrence → Prop) (history : List Occurrence) : Prop :=
  ∃ earlier occurrence later, history = earlier ++ occurrence :: later ∧ happened occurrence ∧
    ∀ entry ∈ later, keeps entry

section Since

variable {happened keeps : Occurrence → Prop} {occurrence : Occurrence}

/-- What has happened last was kept, as nothing came after it. -/
theorem since_concat (h : happened occurrence) (history : List Occurrence) :
    Since happened keeps (history ++ [occurrence]) :=
  ⟨history, occurrence, [], rfl, h, fun _ hmem => absurd hmem List.not_mem_nil⟩

/-- What comes next may keep what has happened. -/
theorem Since.concat {history : List Occurrence} (h : Since happened keeps history)
    (hkeeps : keeps occurrence) : Since happened keeps (history ++ [occurrence]) := by
  obtain ⟨earlier, first, later, rfl, hfirst, hlater⟩ := h
  -- what happened stays where it was, and what has kept it since is one longer
  refine ⟨earlier, first, later ++ [occurrence], by simp, hfirst, ?_⟩
  intro entry hentry
  rcases List.mem_append.1 hentry with hentry | hentry
  · exact hlater entry hentry
  · exact List.mem_singleton.1 hentry ▸ hkeeps

end Since

/-- A client among its peripherals, with what has happened so far. -/
structure Session (σ : Type) where
  client : Client
  peripherals : σ
  /-- What has happened, the latest last. -/
  history : List Occurrence

namespace Session

variable {σ : Type}

/-- A session with a new client. -/
def start (identity : Identity) (period : Nat) (peripherals : σ) : Session σ where
  client := .new identity period
  peripherals := peripherals
  history := []

/-- The session after an action. -/
def act (environment : Environment σ) (session : Session σ) : Action σ → Session σ
  | .step =>
    let result := session.client.step.run environment session.peripherals
    let events := session.client.step.trace environment session.peripherals
    { client := result.1
      peripherals := result.2
      history := session.history ++ [.step session.client events result.1] }
  | .tick =>
    { session with
      client := { session.client with wait := session.client.wait.tick }
      history := session.history ++ [.tick] }
  | .configure json =>
    let result := (session.client.configure json).run environment session.peripherals
    let events := (session.client.configure json).trace environment session.peripherals
    { client := result.1.2
      peripherals := result.2
      history := session.history ++ [.configure events] }
  | .fan change =>
    { session with
      client := { session.client with fan := change session.client.fan }
      history := session.history ++ [.other] }
  | .change change =>
    { session with
      peripherals := change session.peripherals
      history := session.history ++ [.other] }

/-- The session after a sequence of actions. -/
def run (environment : Environment σ) (session : Session σ) (actions : List (Action σ)) :
    Session σ :=
  actions.foldl (act environment) session

end Session

/-- How the client goes on from what happens. -/
inductive Occurrence.Turns (client : Client) : Occurrence → Client → Prop
  | step (events : List Event) (after : Client) (hcourse : client.Course events after) :
    Turns client (.step client events after) after
  | configure (events : List Event) (after : Client) (hclient : client.Reconfigured events after) :
    Turns client (.configure events) after
  | tick : Turns client .tick { client with wait := client.wait.tick }
  | other (fan : FanControl) : Turns client .other { client with fan }

namespace Session

variable {σ : Type}

/-- An action adds one occurrence to the history, from which the client goes on. -/
theorem turns_act (environment : Environment σ) (session : Session σ) (action : Action σ) :
    ∃ occurrence, (session.act environment action).history = session.history ++ [occurrence] ∧
      occurrence.Turns session.client (session.act environment action).client := by
  cases action with
  | step =>
    have hcourse := session.client.course_step.run environment session.peripherals
    exact ⟨_, rfl, .step _ _ hcourse⟩
  | configure json =>
    have hclient := (session.client.ensures_configure json).run environment session.peripherals
    exact ⟨_, rfl, .configure _ _ hclient⟩
  | tick => exact ⟨_, rfl, .tick⟩
  | fan change => exact ⟨_, rfl, .other _⟩
  | change change => exact ⟨_, rfl, .other session.client.fan⟩

/-- What a new client has with no history, and keeps with whatever happens next, it has in every
run. -/
theorem run_induction {motive : List Occurrence → Client → Prop} (environment : Environment σ)
    (identity : Identity) (period : Nat) (peripherals : σ) (actions : List (Action σ))
    (start : motive [] (.new identity period))
    (turn : ∀ history client occurrence client', motive history client →
      occurrence.Turns client client' → motive (history ++ [occurrence]) client') :
    motive ((Session.start identity period peripherals).run environment actions).history
      ((Session.start identity period peripherals).run environment actions).client := by
  refine List.foldlRecOn actions (act environment)
    (motive := fun session : Session σ => motive session.history session.client) start ?_
  intro session h action _
  obtain ⟨occurrence, hhistory, hturn⟩ := session.turns_act environment action
  rw [hhistory]
  exact turn _ _ _ _ h hturn

/-- All steps of a history go in one of the ways. -/
theorem course_of_mem_history (environment : Environment σ) (identity : Identity) (period : Nat)
    (peripherals : σ) (actions : List (Action σ)) {before after : Client} {events : List Event}
    (h : .step before events after ∈
      ((start identity period peripherals).run environment actions).history) :
    before.Course events after := by
  revert before after events
  refine run_induction environment identity period peripherals actions
    (motive := fun history _ => ∀ {before after events},
      .step before events after ∈ history → before.Course events after) nofun ?_
  intro history client occurrence client' h hturn before after events hmem
  rcases List.mem_append.1 hmem with hmem | hmem
  · exact h hmem
  · obtain rfl := List.mem_singleton.1 hmem
    cases hturn with
    | step _ _ hcourse => exact hcourse

end Session

/-- What stands in front of the only element of a kind is known. -/
theorem front_eq_of_append_cons {α : Type} {p : α → Prop} {before after front back : List α}
    {a b : α} (h : before ++ a :: after = front ++ b :: back) (hb : p b)
    (hbefore : ∀ c ∈ before, ¬p c) (hafter : ∀ c ∈ after, ¬p c) : front = before := by
  -- one of the two fronts is the longer one, and would have the other element inside
  rcases List.append_eq_append_iff.1 h with ⟨between, rfl, hrest⟩ | ⟨between, rfl, hrest⟩
  · cases between with
    | nil => rw [List.append_nil]
    | cons c between =>
      obtain ⟨-, rfl⟩ := List.cons.inj hrest
      exact absurd hb (hafter b (by simp))
  · cases between with
    | nil => rw [List.append_nil]
    | cons c between =>
      obtain ⟨rfl, -⟩ := List.cons.inj hrest
      exact absurd hb (hbefore b (by simp))

section Opening

variable {identity : Identity} {clientId topic : String} {events front back : List Event}
  {result reply : Except CloudError Unit}

/-- A session that was opened ends with a topic subscribed to. -/
theorem Opening.subscribes (h : Opening identity clientId topic events result)
    (hresult : result = .ok ()) :
    ∃ front topic, events = front ++ [⟨.subscribe topic, .ok ()⟩] := by
  cases h with
  | unreachable | unsigned | unreadable | refused => cases hresult
  | accepted now delivery token =>
    subst hresult
    exact ⟨signing identity now delivery ++ [⟨.connect (.ofToken clientId token), .ok ()⟩], topic,
      by simp⟩

/-- A login comes right after a token was signed. -/
theorem Opening.front_of_connect {login : Login}
    (h : Opening identity clientId topic events result)
    (hevents : events = front ++ ⟨.connect login, reply⟩ :: back) :
    ∃ now delivery, front = signing identity now delivery := by
  have hmem : (⟨.connect login, reply⟩ : Event) ∈ events := by simp [hevents]
  cases h with
  | unreachable | unsigned | unreadable => simp [signing] at hmem
  | refused now delivery token =>
    have hfront := front_eq_of_append_cons (p := (·.call = .connect login)) hevents rfl
    exact ⟨now, delivery, hfront (by simp [signing]) (by simp)⟩
  | accepted now delivery token =>
    have hfront := front_eq_of_append_cons (p := (·.call = .connect login)) hevents rfl
    exact ⟨now, delivery, hfront (by simp [signing]) (by simp)⟩

/-- A topic is subscribed to right after a login was accepted. -/
theorem Opening.front_of_subscribe {name : String}
    (h : Opening identity clientId topic events result)
    (hevents : events = front ++ ⟨.subscribe name, reply⟩ :: back) :
    ∃ front' login, front = front' ++ [⟨.connect login, .ok ()⟩] := by
  have hmem : (⟨.subscribe name, reply⟩ : Event) ∈ events := by simp [hevents]
  cases h with
  | unreachable | unsigned | unreadable | refused => simp [signing] at hmem
  | accepted now delivery token =>
    -- the login belongs to the front here
    rw [← List.singleton_append, ← List.append_assoc] at hevents
    have hfront := front_eq_of_append_cons (p := (·.call = .subscribe name)) hevents rfl
    exact ⟨_, _, hfront (by simp [signing]) (by simp)⟩

/-- No message moves before the session is open. -/
theorem Opening.not_usesSession (h : Opening identity clientId topic events result) :
    ∀ event ∈ events, ¬event.call.UsesSession := by
  cases h <;> simp [signing, Call.UsesSession]

end Opening

/-- No session is opened while telemetry is published. -/
theorem Publication.not_establishes {client client' : Client} {events : List Event}
    (h : client.Publication events client') : ∀ event ∈ events, ¬event.call.Establishes := by
  cases h <;> simp [Call.Establishes]

/-- Publishing telemetry leaves the state of the session alone. -/
theorem Publication.phase_identity_eq {client client' : Client} {events : List Event}
    (h : client.Publication events client') :
    client'.phase = client.phase ∧ client'.identity = client.identity := by
  cases h <;> exact ⟨rfl, rfl⟩

/-- A configuration does not establish a session. -/
theorem Reconfigured.not_establishes {client client' : Client} {events : List Event}
    (h : client.Reconfigured events client') : ∀ event ∈ events, ¬event.call.Establishes := by
  obtain rfl | ⟨now, rfl⟩ := h.events_eq <;> simp [Call.Establishes]

/-- A configuration changes neither the phase nor the identity. -/
theorem Reconfigured.phase_identity_eq {client client' : Client} {events : List Event}
    (h : client.Reconfigured events client') :
    client'.phase = client.phase ∧ client'.identity = client.identity := by
  rw [h.client_eq]
  exact ⟨rfl, rfl⟩

namespace Course

variable {client client' : Client} {events : List Event}

theorem identity_eq (h : client.Course events client') : client'.identity = client.identity := by
  cases h with
  | received _ _ _ _ _ hclient => exact hclient.phase_identity_eq.2
  | publication _ _ _ _ hpublication => exact hpublication.phase_identity_eq.2
  | _ => simp

/-- The session is open after a step that has subscribed to its topic, or that has found it open and
has kept it. -/
theorem subscribes_or_keeps (h : client.Course events client') (hrun : client'.phase = .run) :
    (Occurrence.step client events client').Subscribes ∨
      client.phase = .run ∧ (Occurrence.step client events client').KeepsSession := by
  cases h with
  | idle hphase => exact .inr ⟨hphase, ⟨_, rfl⟩, by simp [Call.Establishes]⟩
  | received hphase _ _ _ _ hclient =>
    exact .inr ⟨hphase, ⟨_, rfl⟩, by simpa [Call.Establishes] using hclient.not_establishes⟩
  | publication hphase _ _ _ hpublication =>
    exact .inr ⟨hphase, ⟨_, rfl⟩, by simpa [Call.Establishes] using hpublication.not_establishes⟩
  | opening hphase _ _ _ _ _ _ result hopening =>
    -- only a successful attempt leads to an open session
    left
    refine hopening.subscribes ?_
    rw [phase_afterOpening hphase] at hrun
    match result with
    | .ok () => rfl
  | paused hphase => rcases hphase with hphase | hphase <;> simp [hphase] at hrun
  | timeMissing hphase => simp [hphase] at hrun
  | start | timeKnown | unusable | lost | error => simp at hrun

/-- The session is to be opened after a step that has found the time known, or that has been to open
it. -/
theorem enters_or_stays (h : client.Course events client') (hconnect : client'.phase = .connect) :
    (Occurrence.step client events client').EntersConnect ∨
      client.phase = .connect ∧ (Occurrence.step client events client').StaysInConnect := by
  cases h with
  | timeKnown hphase _ now hnow => exact .inl ⟨hphase, rfl, now, rfl, hnow⟩
  | paused => exact .inr ⟨hconnect, hconnect, hconnect⟩
  | opening hphase => exact .inr ⟨hphase, hphase, hconnect⟩
  | idle hphase | lost hphase | timeMissing hphase => simp [hphase] at hconnect
  | received hphase _ _ _ _ hclient => simp [hclient.phase_identity_eq, hphase] at hconnect
  | publication hphase _ _ _ hpublication =>
    simp [hpublication.phase_identity_eq, hphase] at hconnect
  | start | unusable | error => simp at hconnect

/-- A step whose messages move has found the session open and no network error. -/
theorem run_of_usesSession (h : client.Course events client') :
    ∀ event ∈ events, event.call.UsesSession →
      client.phase = .run ∧ ∃ rest, events = ⟨.hasError, false⟩ :: rest := by
  cases h with
  | idle hphase | received hphase | publication hphase => exact fun _ _ _ => ⟨hphase, _, rfl⟩
  | opening _ _ _ _ _ _ _ _ hopening =>
    exact fun event hmem huses => absurd huses (hopening.not_usesSession event hmem)
  | start | paused | timeMissing | timeKnown | unusable | lost | error =>
    simp [Call.UsesSession]

/-- Only opening the session makes calls that open one. -/
theorem opening_of_establishes (h : client.Course events client') :
    ∀ event ∈ events, event.call.Establishes →
      ∃ clientId topic result, Opening client.identity clientId topic events result := by
  cases h with
  | opening _ _ clientId topic _ _ _ result hopening =>
    exact fun _ _ _ => ⟨clientId, topic, result, hopening⟩
  | received _ _ _ _ _ hclient =>
    -- behind the two calls that fetch the message there is at most one for the time
    intro event hmem hestablishes
    rcases List.mem_cons.1 hmem with rfl | hmem
    · exact hestablishes.elim
    rcases List.mem_cons.1 hmem with rfl | hmem
    · exact hestablishes.elim
    · exact absurd hestablishes (hclient.not_establishes event hmem)
  | publication _ _ _ _ hpublication =>
    intro event hmem hestablishes
    rcases List.mem_cons.1 hmem with rfl | hmem
    · exact hestablishes.elim
    · exact absurd hestablishes (hpublication.not_establishes event hmem)
  | start | paused | timeMissing | timeKnown | unusable | lost | idle | error =>
    simp [Call.Establishes]

/-- A step of an open session looks for a network error first, and gives the session up if there is
one. -/
theorem lost_of_run (h : client.Course events client') (hrun : client.phase = .run) :
    ∃ lost rest, events = ⟨.hasError, lost⟩ :: rest ∧
      (lost = true → rest = [] ∧ client'.phase = .start) := by
  cases h with
  | lost => exact ⟨true, [], rfl, fun _ => ⟨rfl, rfl⟩⟩
  | idle | received | publication => exact ⟨false, _, rfl, nofun⟩
  | paused hphase => rcases hphase with hphase | hphase <;> simp [hphase] at hrun
  | start hphase | timeMissing hphase | timeKnown hphase | unusable hphase | opening hphase
  | error hphase => simp [hphase] at hrun

end Course

/-- The order that a step keeps after what has happened. -/
structure Ordered (identity : Identity) (history : List Occurrence) (client : Client)
    (events : List Event) (client' : Client) : Prop where
  /-- Messages move only in an open session: a topic was subscribed to, and since then no call has
  opened a session and no step has found a network error, this one included. -/
  message : ∀ event ∈ events, event.call.UsesSession →
    Since Occurrence.Subscribes Occurrence.KeepsSession history ∧
      ∃ rest, events = ⟨.hasError, false⟩ :: rest
  /-- A login comes right after a connection and a token for the time of the step. -/
  connect : ∀ front login reply back, events = front ++ ⟨.connect login, reply⟩ :: back →
    ∃ now delivery, front = signing identity now delivery
  /-- A topic is subscribed to right after a login. -/
  subscribe : ∀ front topic reply back, events = front ++ ⟨.subscribe topic, reply⟩ :: back →
    ∃ front' login, front = front' ++ [⟨.connect login, .ok ()⟩]
  /-- A session is to be opened since the time was found known. -/
  entered : client.phase = .connect →
    Since Occurrence.EntersConnect Occurrence.StaysInConnect history
  /-- After a network error nothing else is called, and the client starts over. -/
  lost : client.phase = .run → ∃ lost rest, events = ⟨.hasError, lost⟩ :: rest ∧
    (lost = true → rest = [] ∧ client'.phase = .start)

namespace Session

variable {σ : Type} {identity : Identity}

/-- The state of the client tells what has happened. -/
structure Tracked (identity : Identity) (session : Session σ) : Prop where
  /-- The identity is the one at the start. -/
  identity_eq : session.client.identity = identity
  /-- In an open session a topic was subscribed to, and the session was kept since. -/
  run : session.client.phase = .run →
    Since Occurrence.Subscribes Occurrence.KeepsSession session.history
  /-- If the session is to be opened, the time was found known. -/
  connect : session.client.phase = .connect →
    Since Occurrence.EntersConnect Occurrence.StaysInConnect session.history

/-- A new client is in neither of the phases that tell something. -/
theorem tracked_start (identity : Identity) (period : Nat) (peripherals : σ) :
    (start identity period peripherals).Tracked identity := ⟨rfl, nofun, nofun⟩

/-- What leaves the state of the client alone can be added to the history. -/
theorem Tracked.concat {session session' : Session σ} (h : session.Tracked identity)
    {occurrence : Occurrence} (hidentity : session'.client.identity = session.client.identity)
    (hphase : session'.client.phase = session.client.phase)
    (hhistory : session'.history = session.history ++ [occurrence])
    (hkeeps : occurrence.KeepsSession) (hstays : occurrence.StaysInConnect) :
    session'.Tracked identity := by
  refine ⟨hidentity.trans h.identity_eq, fun hrun => ?_, fun hconnect => ?_⟩
  · rw [hhistory]
    exact (h.run (hphase ▸ hrun)).concat hkeeps
  · rw [hhistory]
    exact (h.connect (hphase ▸ hconnect)).concat hstays

/-- The state of the client tells what has happened after every action. -/
theorem tracked_act (environment : Environment σ) {session : Session σ}
    (h : session.Tracked identity) (action : Action σ) :
    (session.act environment action).Tracked identity := by
  cases action with
  | step =>
    -- a step either brings about what is told of the new state, or was in that state before
    have hcourse := session.client.course_step.run environment session.peripherals
    refine ⟨hcourse.identity_eq.trans h.identity_eq, fun hrun => ?_, fun hconnect => ?_⟩
    · rcases hcourse.subscribes_or_keeps hrun with hsubscribes | ⟨hphase, hkeeps⟩
      · exact since_concat hsubscribes session.history
      · exact (h.run hphase).concat hkeeps
    · rcases hcourse.enters_or_stays hconnect with henters | ⟨hphase, hstays⟩
      · exact since_concat henters session.history
      · exact (h.connect hphase).concat hstays
  | configure json =>
    have hclient := (session.client.ensures_configure json).run environment session.peripherals
    obtain ⟨hphase, hidentity⟩ := hclient.phase_identity_eq
    exact h.concat hidentity hphase rfl hclient.not_establishes trivial
  | tick | fan change | change change => exact h.concat rfl rfl rfl trivial trivial

/-- The state of the client tells what has happened in every run. -/
theorem tracked_run (environment : Environment σ) (identity : Identity) (period : Nat)
    (peripherals : σ) (actions : List (Action σ)) :
    ((start identity period peripherals).run environment actions).Tracked identity := by
  refine List.foldlRecOn actions (act environment)
    (tracked_start identity period peripherals) ?_
  intro session h action _
  exact tracked_act environment h action

end Session

/-- The calls of the client come in order: in every run each step keeps it, and configuration
messages from elsewhere do no more than ask for the time. -/
theorem session_ordered {σ : Type} (environment : Environment σ) (identity : Identity)
    (period : Nat) (peripherals : σ) (actions : List (Action σ)) :
    let session := (Session.start identity period peripherals).run environment actions
    Ordered identity session.history session.client
      (session.client.step.trace environment session.peripherals)
      (session.client.step.run environment session.peripherals).1 ∧
    ∀ json, ∀ event ∈ (session.client.configure json).trace environment session.peripherals,
      event.call = .utc := by
  intro session
  have htracked : session.Tracked identity :=
    Session.tracked_run environment identity period peripherals actions
  have hcourse := session.client.course_step.run environment session.peripherals
  refine ⟨⟨?_, ?_, ?_, htracked.connect, hcourse.lost_of_run⟩, ?_⟩
  · intro event hmem huses
    obtain ⟨hphase, hfound⟩ := hcourse.run_of_usesSession event hmem huses
    exact ⟨htracked.run hphase, hfound⟩
  -- only an opening has these two calls, and it makes its calls in a fixed order
  · intro front login reply back hevents
    have hmem : (⟨.connect login, reply⟩ : Event) ∈
        session.client.step.trace environment session.peripherals := by simp [hevents]
    obtain ⟨clientId, topic, result, hopening⟩ := hcourse.opening_of_establishes _ hmem trivial
    rw [htracked.identity_eq] at hopening
    exact hopening.front_of_connect hevents
  · intro front topic reply back hevents
    have hmem : (⟨.subscribe topic, reply⟩ : Event) ∈
        session.client.step.trace environment session.peripherals := by simp [hevents]
    obtain ⟨clientId, name, result, hopening⟩ := hcourse.opening_of_establishes _ hmem trivial
    exact hopening.front_of_subscribe hevents
  · intro json event hmem
    have hclient := (session.client.ensures_configure json).run environment session.peripherals
    obtain hnone | ⟨now, hnow⟩ := hclient.events_eq
    · exact absurd hmem (hnone ▸ List.not_mem_nil)
    · rw [hnow] at hmem
      rw [List.mem_singleton.1 hmem]

end Client

end SecureKit

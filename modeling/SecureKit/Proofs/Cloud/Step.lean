import SecureKit.Cloud.Client
import SecureKit.Proofs.Peripheral.Program

/-!
# The Steps of the Client

What a step may call and where it may lead, written out once. A property of the client that holds
over all runs follows from a look at each of these cases.

* `Client.Course` — the ways in which a step may go.
* `Client.course_step` — there are no others.
-/

namespace SecureKit

open Program

namespace Client

/-- The text of a signed token, if it is one. -/
def tokenText? (delivery : Delivery) : Option String :=
  (delivered? tokenRoom delivery).bind Bytes.text?

/-- The calls that lead to a signed token. -/
def signing (identity : Identity) (now : UInt32) (delivery : Delivery) : List Event :=
  [⟨.openSocket identity.host identity.port, .ok ()⟩, ⟨.utc, now⟩,
    ⟨.sign (.issue now identity.projectId) tokenRoom, .ok delivery⟩]

/-- The ways in which opening the session may go under a client name and with a topic, with the
calls and the result. -/
inductive Opening (identity : Identity) (clientId topic : String) :
    List Event → Except CloudError Unit → Prop
  /-- There is no connection. -/
  | unreachable (error : CloudError) :
    Opening identity clientId topic [⟨.openSocket identity.host identity.port, .error error⟩]
      (.error error)
  /-- The token could not be signed. -/
  | unsigned (now : UInt32) (error : CloudError) :
    Opening identity clientId topic
      [⟨.openSocket identity.host identity.port, .ok ()⟩, ⟨.utc, now⟩,
        ⟨.sign (.issue now identity.projectId) tokenRoom, .error error⟩]
      (.error error)
  /-- What was signed is no text, or too long. -/
  | unreadable (now : UInt32) (delivery : Delivery) (htoken : tokenText? delivery = none) :
    Opening identity clientId topic (signing identity now delivery) (.error .token)
  /-- The login is refused. -/
  | refused (now : UInt32) (delivery : Delivery) (token : String)
    (htoken : tokenText? delivery = some token) (error : CloudError) :
    Opening identity clientId topic
      (signing identity now delivery ++ [⟨.connect (.ofToken clientId token), .error error⟩])
      (.error error)
  /-- The login is accepted, and the topic may be or not. -/
  | accepted (now : UInt32) (delivery : Delivery) (token : String)
    (htoken : tokenText? delivery = some token) (result : Except CloudError Unit) :
    Opening identity clientId topic
      (signing identity now delivery ++
        [⟨.connect (.ofToken clientId token), .ok ()⟩, ⟨.subscribe topic, result⟩])
      result

/-- The ways in which publishing telemetry may go. -/
inductive Publication (client : Client) : List Event → Client → Prop
  /-- There is no temperature. -/
  | noTemperature (now : UInt32) (error : FanError) :
    Publication client [⟨.utc, now⟩, ⟨.temperature, .error error⟩] client
  /-- There is no fan speed. -/
  | noFanSpeed (now : UInt32) (temperature : Int32) (error : FanError) :
    Publication client
      [⟨.utc, now⟩, ⟨.temperature, .ok temperature⟩, ⟨.fanSpeed, .error error⟩] client
  /-- The message does not fit, or its topic. -/
  | unwritten (now : UInt32) (temperature : Int32) (fanSpeed : UInt16)
    (hunwritten :
      Json.fitting? messageRoom (Telemetry.json ⟨now, temperature.toInt, fanSpeed⟩) = none ∨
        ∃ error, client.identity.publishTopic = .error error) :
    Publication client
      [⟨.utc, now⟩, ⟨.temperature, .ok temperature⟩, ⟨.fanSpeed, .ok fanSpeed⟩] client
  /-- The message is published, whatever comes of it. -/
  | published (now : UInt32) (temperature : Int32) (fanSpeed : UInt16) (payload : Bytes)
    (hpayload : Json.fitting? messageRoom (Telemetry.json ⟨now, temperature.toInt, fanSpeed⟩) =
      some payload)
    (topic : String) (htopic : client.identity.publishTopic = .ok topic)
    (result : Except CloudError Unit) :
    Publication client
      [⟨.utc, now⟩, ⟨.temperature, .ok temperature⟩, ⟨.fanSpeed, .ok fanSpeed⟩,
        ⟨.publish topic (nextMessageId client.messageId) payload, result⟩]
      { client with messageId := nextMessageId client.messageId }

/-- What a configuration message may do to the client. -/
structure Reconfigured (client : Client) (events : List Event) (client' : Client) : Prop where
  /-- At most the time is asked for. -/
  events_eq : events = [] ∨ ∃ now, events = [⟨.utc, now⟩]
  /-- Only the fan control and the telemetry period change. -/
  client_eq : client' = { client with fan := client'.fan, updatePeriod := client'.updatePeriod }
  /-- A new period is not too short. -/
  updatePeriod :
    client'.updatePeriod = client.updatePeriod ∨ periodMin < client'.updatePeriod

/-- The client after an attempt to open the session. -/
def afterOpening (client : Client) : Except CloudError Unit → Client
  | .ok () => client.enter .run
  | .error (.identity _) => client.enter .error
  | .error _ => client.pause connectRetry

@[simp]
theorem phase_enter (client : Client) (phase : Phase) : (client.enter phase).phase = phase := rfl

@[simp]
theorem identity_enter (client : Client) (phase : Phase) :
    (client.enter phase).identity = client.identity := rfl

@[simp]
theorem phase_pause (client : Client) (duration : Nat) :
    (client.pause duration).phase = client.phase := rfl

@[simp]
theorem identity_pause (client : Client) (duration : Nat) :
    (client.pause duration).identity = client.identity := rfl

/-- Whatever comes of opening a session, the identity stays. -/
@[simp]
theorem identity_afterOpening (client : Client) (result : Except CloudError Unit) :
    (client.afterOpening result).identity = client.identity := by
  unfold afterOpening
  split <;> rfl

/-- The session is open after an attempt that has succeeded, and is still to be opened after one
that has failed for another reason than the identity. -/
theorem phase_afterOpening {client : Client} (hphase : client.phase = .connect)
    (result : Except CloudError Unit) :
    (client.afterOpening result).phase =
      match result with
      | .ok () => .run
      | .error (.identity _) => .error
      | .error _ => .connect := by
  unfold afterOpening
  split <;> simp [hphase]

/-- The ways in which a step may go, with its calls and the client afterwards. -/
inductive Course (client : Client) : List Event → Client → Prop
  /-- A new session starts. -/
  | start (hphase : client.phase = .start) :
    Course client [] ({ client with updatePeriod := defaultPeriod }.enter .getTime)
  /-- The client pauses. -/
  | paused (hphase : client.phase = .getTime ∨ client.phase = .connect)
    (hheld : client.wait.held = true) : Course client [] client
  /-- The time is asked for. -/
  | timeMissing (hphase : client.phase = .getTime) (hheld : client.wait.held = false) :
    Course client [⟨.utc, (0 : UInt32)⟩, ⟨.requestTime, ()⟩] (client.pause timeWait)
  /-- The time is known. -/
  | timeKnown (hphase : client.phase = .getTime) (hheld : client.wait.held = false)
    (now : UInt32) (hnow : now ≠ 0) : Course client [⟨.utc, now⟩] (client.enter .connect)
  /-- The identity cannot be used. -/
  | unusable (hphase : client.phase = .connect) (hheld : client.wait.held = false)
    (error : IdentityError)
    (hidentity : client.identity.clientId = .error error ∨
      client.identity.subscribeTopic = .error error) :
    Course client [] (client.enter .error)
  /-- The session is opened, or not. -/
  | opening (hphase : client.phase = .connect) (hheld : client.wait.held = false)
    (clientId topic : String) (hclientId : client.identity.clientId = .ok clientId)
    (htopic : client.identity.subscribeTopic = .ok topic) (events : List Event)
    (result : Except CloudError Unit)
    (hopening : Opening client.identity clientId topic events result) :
    Course client events (client.afterOpening result)
  /-- The network is lost. -/
  | lost (hphase : client.phase = .run) : Course client [⟨.hasError, true⟩] (client.enter .start)
  /-- No message has arrived. -/
  | idle (hphase : client.phase = .run) (hheld : client.wait.held = true)
    (reply : Except CloudError (Option Delivery))
    (hreply : ∀ delivery, reply ≠ .ok (some delivery)) :
    Course client [⟨.hasError, false⟩, ⟨.pollMessage messageRoom, reply⟩] client
  /-- A message has arrived. -/
  | received (hphase : client.phase = .run) (hheld : client.wait.held = true) (delivery : Delivery)
    (events : List Event) (client' : Client) (hclient : client.Reconfigured events client') :
    Course client
      (⟨.hasError, false⟩ :: ⟨.pollMessage messageRoom, .ok (some delivery)⟩ :: events) client'
  /-- Telemetry is published, or not. -/
  | publication (hphase : client.phase = .run) (hheld : client.wait.held = false)
    (events : List Event) (client' : Client)
    (hpublication : (client.pause client.updatePeriod.toNat).Publication events client') :
    Course client (⟨.hasError, false⟩ :: events) client'
  /-- The session starts over. -/
  | error (hphase : client.phase = .error) : Course client [] (client.enter .start)

/-- Signing a token asks for the time and for the signature. -/
theorem run_signToken (identity : Identity) :
    (signToken identity).run =
      call .utc fun now => call (.sign (.issue now identity.projectId) tokenRoom) fun signed =>
        done (signed.bind fun delivery => (tokenText? delivery).elim (.error .token) .ok) := by
  refine congrArg (call .utc) (funext fun now => congrArg (call _) (funext fun signed => ?_))
  cases signed with
  | error error => rfl
  | ok delivery =>
    dsimp only [Program.bind, ExceptT.bindCont, Except.bind, tokenText?]
    cases (delivered? tokenRoom delivery).bind Bytes.text? <;> rfl

/-- Opening the session goes in one of the ways. -/
theorem ensures_openSession (identity : Identity) {clientId topic : String}
    (hclientId : identity.clientId = .ok clientId) (htopic : identity.subscribeTopic = .ok topic) :
    (openSession identity).run.Ensures (Opening identity clientId topic) := by
  -- both names are usable, so the first thing that is tried is the connection
  have hopen : (openSession identity).run =
      call (.openSocket identity.host identity.port) fun opened =>
        match opened with
        | .error error => done (.error error)
        | .ok () => (signToken identity >>= fun token => do
            attempt (perform (.connect (.ofToken clientId token)))
            attempt (perform (.subscribe topic))).run := by
    rw [openSession, hclientId, htopic]
    refine congrArg (call _) (funext fun opened => ?_)
    cases opened <;> rfl
  rw [hopen]
  rintro (error | _)
  · exact .unreachable error
  dsimp only
  -- signing a token is two calls, and what the second one gives may still be no text
  rw [ExceptT.run_bind, run_signToken, call_bind, ensures_call]
  intro now
  rw [call_bind, ensures_call]
  rintro (error | delivery)
  · exact .unsigned now error
  rw [done_bind, Except.bind]
  cases htoken : tokenText? delivery with
  | none => exact .unreadable now delivery htoken
  | some token =>
    rintro (error | _)
    · exact .refused now delivery token htoken error
    · exact fun result => .accepted now delivery token htoken result

/-- Taking the values for telemetry asks for the time, the temperature and the fan speed. -/
theorem run_measure :
    measure.run = call .utc fun now => call .temperature fun temperature =>
      match temperature with
      | .error error => done (.error (.fan error))
      | .ok temperature => call .fanSpeed fun fanSpeed =>
        match fanSpeed with
        | .error error => done (.error (.fan error))
        | .ok fanSpeed =>
          done ((Json.fitting? messageRoom (Telemetry.json ⟨now, temperature.toInt, fanSpeed⟩)).elim
            (.error .serialize) .ok) := by
  refine congrArg (call .utc) (funext fun now => congrArg (call _) (funext fun temperature => ?_))
  cases temperature with
  | error error => rfl
  | ok temperature =>
    refine congrArg (call .fanSpeed) (funext fun fanSpeed => ?_)
    cases fanSpeed with
    | error error => rfl
    | ok fanSpeed =>
      dsimp only [Program.bind, Function.comp, fanResult, Except.mapError, ExceptT.bindCont]
      cases Json.fitting? messageRoom (Telemetry.json ⟨now, temperature.toInt, fanSpeed⟩) <;> rfl

/-- Publishing telemetry goes in one of the ways. -/
theorem ensures_publishTelemetry (client : Client) :
    client.publishTelemetry.Ensures fun events result => client.Publication events result.2 := by
  rw [publishTelemetry, run_measure, call_bind, ensures_call]
  intro now
  rw [call_bind, ensures_call]
  rintro (error | temperature)
  · exact .noTemperature now error
  dsimp only
  rw [call_bind, ensures_call]
  rintro (error | fanSpeed)
  · exact .noFanSpeed now temperature error
  rw [done_bind]
  cases hpayload : Json.fitting? messageRoom
      (Telemetry.json ⟨now, temperature.toInt, fanSpeed⟩) with
  | none => exact .unwritten now temperature fanSpeed (.inl hpayload)
  | some payload =>
    rw [Option.elim_some]
    -- the topic is looked at last, but before a message number is taken
    cases htopic : client.identity.publishTopic with
    | error error => exact .unwritten now temperature fanSpeed (.inr ⟨error, htopic⟩)
    | ok topic =>
      exact fun result => .published now temperature fanSpeed payload hpayload topic htopic result

/-- Whatever has become of the fan control, the telemetry period is set last. -/
theorem ensures_updateRate (client : Client) (fan : FanControl) (rate? : Option UInt32)
    {events : List Event} (hevents : events = [] ∨ ∃ now, events = [⟨.utc, now⟩]) :
    Ensures (match rate? with
      | some rate =>
        return if periodMin < rate then { client with fan, updatePeriod := rate }
          else { client with fan }
      | none => return { client with fan })
    fun events' client' => client.Reconfigured (events ++ events') client' := by
  have hevents' : events ++ [] = [] ∨ ∃ now, events ++ [] = [⟨.utc, now⟩] := by
    rwa [List.append_nil]
  cases rate? with
  | none => exact ⟨hevents', rfl, .inl rfl⟩
  | some rate =>
    by_cases hrate : periodMin < rate
    · exact ⟨hevents', by simp [hrate], .inr (by simp [hrate])⟩
    · exact ⟨hevents', by simp [hrate], .inl (by simp [hrate])⟩

/-- A configuration message asks for the time at most. -/
theorem ensures_apply (client : Client) (message : ConfigMessage) :
    (client.apply message).Ensures client.Reconfigured := by
  rw [apply]
  cases message.speedMap <;> cases message.speedOverride
  case none.none | some.none => exact client.ensures_updateRate _ _ (.inl rfl)
  case none.some | some.some =>
    exact fun now => client.ensures_updateRate _ _ (.inr ⟨now, rfl⟩)

/-- Taking in a configuration is no more than a reconfiguration. -/
theorem ensures_configure (client : Client) (json : Bytes) :
    (client.configure json).Ensures fun events result => client.Reconfigured events result.2 := by
  rw [configure]
  cases ConfigMessage.ofJson? json with
  | none => exact ⟨.inl rfl, rfl, .inl rfl⟩
  | some message =>
    rw [ensures_bind]
    exact (client.ensures_apply message).mono fun events client' h => by simpa using h

/-- Fetching a message goes in one of the ways. -/
theorem course_receive (client : Client) (hphase : client.phase = .run)
    (hheld : client.wait.held = true) :
    client.receive.Ensures fun events client' =>
      client.Course (⟨.hasError, false⟩ :: events) client' := by
  rw [receive, perform_eq, call_bind, ensures_call]
  intro reply
  rw [done_bind]
  match reply with
  | .error _ | .ok none => exact .idle hphase hheld _ nofun
  | .ok (some delivery) =>
    dsimp only
    rw [ensures_bind]
    refine (ensures_configure _ _).mono fun events result h => ?_
    exact .received hphase hheld delivery _ _ (by simpa using h)

/-- An attempt to open the session goes in one of the ways. -/
theorem course_connect (client : Client) (hphase : client.phase = .connect)
    (hheld : client.wait.held = false) :
    Ensures (do
      match ← (openSession client.identity).run with
      | .ok () => return (client.pause connectRetry).enter .run
      | .error (.identity _) => return (client.pause connectRetry).enter .error
      | .error _ => return client.pause connectRetry) client.Course := by
  rw [ensures_bind]
  cases hclientId : client.identity.clientId with
  | error error =>
    rw [openSession, hclientId]
    exact .unusable hphase hheld error (.inl hclientId)
  | ok clientId =>
    cases htopic : client.identity.subscribeTopic with
    | error error =>
      rw [openSession, hclientId, htopic]
      exact .unusable hphase hheld error (.inr htopic)
    | ok topic =>
      refine (ensures_openSession _ hclientId htopic).mono fun events result h => ?_
      have hcourse : client.Course (events ++ []) (client.afterOpening result) := by
        rw [List.append_nil]
        exact .opening hphase hheld clientId topic hclientId htopic events result h
      -- the pause of the attempt is lost when the state changes, and kept otherwise
      match result with
      | .ok () | .error (.identity _) | .error .network | .error .token | .error .serialize
      | .error .parse | .error (.fan _) => exact hcourse

/-- A step goes in one of the ways. -/
theorem course_step (client : Client) : client.step.Ensures client.Course := by
  rw [step]
  cases hphase : client.phase with
  | start => exact .start hphase
  | getTime =>
    dsimp only
    split
    next hheld => exact .paused (.inl hphase) hheld
    next hheld =>
      rw [Bool.not_eq_true] at hheld
      intro now
      show Ensures (if now = 0 then _ else _) _
      split
      next hnow => exact hnow ▸ fun _ => .timeMissing hphase hheld
      next hnow => exact .timeKnown hphase hheld now hnow
  | connect =>
    dsimp only
    split
    next hheld => exact .paused (.inr hphase) hheld
    next hheld =>
      rw [Bool.not_eq_true] at hheld
      exact client.course_connect hphase hheld
  | run =>
    dsimp only
    rintro (_ | _)
    · show Ensures (if client.wait.held = true then _ else _) _
      split
      next hheld => exact client.course_receive hphase hheld
      next hheld =>
        rw [Bool.not_eq_true] at hheld
        rw [ensures_bind]
        refine (ensures_publishTelemetry _).mono fun events result h => ?_
        exact .publication hphase hheld _ _ (by simpa using h)
    · exact .lost hphase
  | error => exact .error hphase

end Client

end SecureKit

import SecureKit.Cloud.Message
import SecureKit.Fan.Control
import SecureKit.Timing.Holdoff

/-!
# The Cloud Client

The client keeps a session with the cloud: it gets the time, logs in with a signed token, publishes
telemetry once in a period and applies the configuration messages that arrive in between. It is a
machine of five states that makes one step at a time and never waits; pauses are kept by a holdoff
that the system tick counts down.

    start → getTime → connect → run

A lost network leads from `run` back to `start`, an identity that cannot be used from `connect` to
`error` and from there to `start`.
-/

namespace SecureKit

open Program

/-- The state of the session. -/
inductive Client.Phase where
  /-- The settings of the session are reset. -/
  | start
  /-- The time is not known yet. -/
  | getTime
  /-- The session is to be opened. -/
  | connect
  /-- The session is open. -/
  | run
  /-- The session has to start over. -/
  | error
  deriving DecidableEq

/-- The state of the cloud client. -/
structure Client where
  /-- The state of the session. -/
  phase : Client.Phase
  /-- The holdoff for pauses. -/
  wait : Holdoff
  /-- The identity in the cloud. -/
  identity : Identity
  /-- The fan control, which the client reads from and configures. -/
  fan : FanControl
  /-- The telemetry period in milliseconds. -/
  updatePeriod : UInt32
  /-- The number of the last published message. -/
  messageId : UInt16

namespace Client

/-- The pause after asking for the time, in milliseconds. -/
def timeWait : Nat := 10000

/-- The pause after an attempt to open the session, in milliseconds. -/
def connectRetry : Nat := 10000

/-- The telemetry period until another one is set, in milliseconds. -/
def defaultPeriod : UInt32 := 10000

/-- Telemetry periods up to this one are ignored, in milliseconds. -/
def periodMin : UInt32 := 1000

/-- The room for a signed token. -/
def tokenRoom : Nat := 512

/-- The room for a message in either direction. -/
def messageRoom : Nat := 256

/-- The client before its first step. -/
def new (identity : Identity) (period : Nat) : Client where
  phase := .start
  wait := .new period
  identity := identity
  fan := .new
  updatePeriod := defaultPeriod
  messageId := 0

/-- Pause for a duration. -/
def pause (client : Client) (duration : Nat) : Client :=
  { client with wait := client.wait.arm duration }

/-- Go to another state, without a pause. -/
def enter (client : Client) (phase : Phase) : Client :=
  { client with phase, wait := client.wait.release }

/-- The largest number of a message. -/
def messageIdMax : UInt16 := 65533

/-- The number after a message number: numbers run from 1 to `messageIdMax`, then start over. -/
def nextMessageId (id : UInt16) : UInt16 := if id < messageIdMax then id + 1 else 1

/-- The bytes of a delivery into a buffer of `room` bytes, as many as reported, if they are within
the buffer. -/
def delivered? (room : Nat) (delivery : Delivery) : Option Bytes :=
  if delivery.length ≤ room then
    some (((Bytes.zeros room).overlay 0 delivery.stored).take delivery.length)
  else none

/-- A result of the identity as one of the session. -/
def identityResult {α : Type} (result : Except IdentityError α) : Except CloudError α :=
  result.mapError .identity

/-- A result of the fan control as one of the session. -/
def fanResult {α : Type} (result : Except FanError α) : Except CloudError α :=
  result.mapError .fan

/-- Make a call that may fail. -/
def attempt {α : Type} (program : Program (Except CloudError α)) : ExceptT CloudError Program α :=
  ExceptT.mk program

/-- Sign a token that starts at a time. -/
def signToken (identity : Identity) : ExceptT CloudError Program String := do
  let now ← perform .utc
  let delivery ← attempt (perform (.sign (.issue now identity.projectId) tokenRoom))
  match (delivered? tokenRoom delivery).bind Bytes.text? with
  | some token => return token
  | none => throw .token

/-- Open the session. The names derived from the identity are checked first, and each step is made
only if the one before has succeeded. -/
def openSession (identity : Identity) : ExceptT CloudError Program Unit := do
  let clientId ← attempt (return identityResult identity.clientId)
  let topic ← attempt (return identityResult identity.subscribeTopic)
  attempt (perform (.openSocket identity.host identity.port))
  let token ← signToken identity
  attempt (perform (.connect (.ofToken clientId token)))
  attempt (perform (.subscribe topic))

/-- Take the values for a telemetry message, and write it. -/
def measure : ExceptT CloudError Program Bytes := do
  let timestamp ← perform .utc
  let temperature ← attempt (fanResult <$> perform .temperature)
  let fanSpeed ← attempt (fanResult <$> perform .fanSpeed)
  let message : Telemetry := { timestamp, temperature := temperature.toInt, fanSpeed }
  match Json.fitting? messageRoom message.json with
  | some payload => return payload
  | none => throw .serialize

/-- Publish telemetry. A message number is used up as soon as there is something to publish. -/
def publishTelemetry (client : Client) : Program (Except CloudError Unit × Client) := do
  match ← measure.run with
  | .error error => return (.error error, client)
  | .ok payload =>
    match identityResult client.identity.publishTopic with
    | .error error => return (.error error, client)
    | .ok topic =>
      -- from here on the number is gone, also if publishing fails
      let id := nextMessageId client.messageId
      return (← perform (.publish topic id payload), { client with messageId := id })

/-- Apply a configuration message that could be read. -/
def apply (client : Client) (message : ConfigMessage) : Program Client := do
  let client :=
    match message.speedMap with
    | some pairs => { client with fan := client.fan.setMap (.ofDegrees pairs) }
    | none => client
  let client ←
    match message.speedOverride with
    | some speed => do
      let now ← perform .utc
      -- an order cannot last longer than 32-bit time
      let limit := UInt32.ofNat (min (now.toNat + speed.duration.toNat) Claims.lastSecond)
      pure { client with fan := client.fan.setOverride speed.rpm limit }
    | none => pure client
  match message.updateRate with
  | some rate => return if periodMin < rate then { client with updatePeriod := rate } else client
  | none => return client

/-- Read and apply a configuration message. -/
def configure (client : Client) (json : Bytes) : Program (Except CloudError Unit × Client) := do
  match ConfigMessage.ofJson? json with
  | none => return (.error .parse, client)
  | some message => return (.ok (), ← client.apply message)

/-- Fetch a message, if one has arrived, and apply it. Of a message that is longer than its buffer
the part in the buffer is read. -/
def receive (client : Client) : Program Client := do
  match ← perform (.pollMessage messageRoom) with
  | .error _ | .ok none => return client
  | .ok (some delivery) =>
    let content := ((Bytes.zeros messageRoom).overlay 0 delivery.stored).take delivery.length
    let (_, client) ← client.configure content
    return client

/-- Make one step. -/
def step (client : Client) : Program Client := do
  match client.phase with
  | .start => return { client with updatePeriod := defaultPeriod }.enter .getTime
  | .getTime =>
    if client.wait.held then return client
    else if (← perform .utc) = 0 then
      perform .requestTime
      return client.pause timeWait
    else return client.enter .connect
  | .connect =>
    if client.wait.held then return client
    else
      -- the pause starts with the attempt, so that a failed one is not repeated at once
      let client := client.pause connectRetry
      match ← (openSession client.identity).run with
      | .ok () => return client.enter .run
      | .error (.identity _) => return client.enter .error
      | .error _ => return client
  | .run =>
    if ← perform .hasError then return client.enter .start
    else if client.wait.held then client.receive
    else
      let (_, client) ← (client.pause client.updatePeriod.toNat).publishTelemetry
      return client
  | .error => return client.enter .start

/-- Message numbers are never zero. -/
theorem nextMessageId_ne_zero (id : UInt16) : nextMessageId id ≠ 0 := by
  unfold nextMessageId
  split
  · rename_i h
    intro h0
    have hlt : id.toNat < 65533 := UInt16.lt_iff_toNat_lt.1 h
    have := congrArg UInt16.toNat h0
    simp at this
    omega
  · decide

end Client

end SecureKit

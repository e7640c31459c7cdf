import SecureKit.Proofs.Peripheral.Program
import SecureKit.Proofs.Protocol.TransmitBuffer
import SecureKit.Protocol.Engine

/-!
# The Responses of the Engine

Each way of responding puts one frame into the transmit buffer. What the frame shows depends on the
answer alone, but for the bytes of the device: a count that is larger than what was stored reaches
into the old content of the buffer.

* `shown_respondStatus`, `shown_respondDevice`, `shown_respondBoard` — the text of the response.
* `devicePayload_blank` — in a cleared buffer nothing but zeros follows the bytes of the device.
* `lock_dispatch`, `lock_respond` — responding leaves the kit lock alone.
* `lock_poll`, `queue_poll` — the kit lock is taken once for every line, and the line is taken out
  of the queue.
-/

namespace SecureKit

open Program

/-- The status byte of an answer to a device command. -/
def DeviceAnswer.status (answer : DeviceAnswer) : UInt8 :=
  match answer.outcome with
  | .ok _ => KitStatus.success.code
  | .error failure => failure.code

namespace BoardAnswer

/-- The status byte of an answer to a board command. -/
def status (answer : BoardAnswer) : UInt8 :=
  match answer.outcome with
  | .ok _ => KitStatus.success.code
  | .error failure => failure.code

/-- The payload of an answer to a board command. -/
def payload (answer : BoardAnswer) : Bytes :=
  match answer.outcome with
  | .ok payload => payload
  | .error _ => []

end BoardAnswer

namespace Engine

/-- The text of a response, from its size and the engine that holds it. -/
def shown (response : Nat × Engine) : Bytes := response.2.transmit.content response.1

/-- The payload sent for an answer to a device command: as many bytes as the first of them says, of
those stored and what the buffer holds after them. -/
def devicePayload (engine : Engine) (answer : DeviceAnswer) : Bytes :=
  match answer.outcome with
  | .ok .counted =>
    let received := engine.transmit.store 1 answer.stored
    (received.bytes.drop 1).take (received.byte 1).toNat
  | _ => []

/-- The payload sent for a device command is at most as long as a count can say. -/
theorem length_devicePayload_lt (engine : Engine) (answer : DeviceAnswer) :
    (engine.devicePayload answer).length < 256 := by
  rw [devicePayload]
  split
  · exact Nat.lt_of_le_of_lt (List.length_take_le _ _) (UInt8.toNat_lt _)
  · decide

/-- In a buffer that was cleared, the payload is what was stored, cut or extended with zero bytes to
the count in front of it. -/
theorem devicePayload_blank (engine : Engine) {answer : DeviceAnswer}
    (hcounted : answer.outcome = .ok .counted) (hroom : answer.stored.length ≤ deviceRoom) :
    { engine with transmit := .blank }.devicePayload answer =
      answer.stored.resize (answer.stored.headD 0).toNat := by
  obtain ⟨stored, outcome⟩ := answer
  subst hcounted
  have hsize : 1 + stored.length ≤ Frame.bufferSize := by
    have : deviceRoom = Frame.bufferSize - 1 := rfl
    have : Frame.bufferSize = 2300 := rfl
    dsimp only at hroom
    omega
  have hstored := TransmitBuffer.drop_store_blank 1 stored hsize
  -- the count is read back from the buffer, behind the place of the status
  have hcount : (TransmitBuffer.blank.store 1 stored).byte 1 = stored.headD 0 := by
    have hfirst : (TransmitBuffer.blank.store 1 stored).byte 1 =
        ((TransmitBuffer.blank.store 1 stored).bytes.drop 1).headD 0 := by
      rw [TransmitBuffer.byte, List.headD_eq_head?_getD, List.head?_drop,
        List.getD_eq_getElem?_getD]
    rw [hfirst, hstored]
    cases stored <;> rfl
  -- a count that is larger than what was stored does not reach the end of the buffer
  have hzeros : (stored.headD 0).toNat - stored.length ≤
      Frame.bufferSize - (1 + stored.length) := by
    have hlt := (stored.headD 0).toNat_lt
    have : Frame.bufferSize = 2300 := rfl
    omega
  show ((TransmitBuffer.blank.store 1 stored).bytes.drop 1).take
    ((TransmitBuffer.blank.store 1 stored).byte 1).toNat = _
  rw [hcount, hstored, List.take_append, Bytes.resize, Bytes.zeros, List.take_replicate,
    Nat.min_eq_left hzeros, Bytes.zeros]

/-- A device line is answered with what its command gives, in a buffer that was cleared. -/
theorem process_device (engine : Engine) {line : Bytes} {command : DeviceCommand}
    (h : Request.ofReceived line = .device command) :
    engine.process line = (do
      let answer ← command.run
      let response := { engine with transmit := .blank }.respondDevice answer
      return (shown response, response.2)) := by
  rw [process, dispatch, h]
  simp [shown]

/-- A board line is answered with what its command gives, in a buffer that was cleared. -/
theorem process_board (engine : Engine) {line : Bytes} {command : BoardCommand}
    (h : Request.ofReceived line = .board command) :
    engine.process line = (do
      let (answer, devices) ← command.run engine.devices
      let response := { engine with devices, transmit := .blank }.respondBoard answer
      return (shown response, response.2)) := by
  rw [process, dispatch, h]
  simp [shown]

/-- A line with an unknown selector is answered with a status. -/
theorem process_unknown (engine : Engine) {line : Bytes} (h : Request.ofReceived line = .unknown) :
    engine.process line = (
      let response := { engine with transmit := .blank }.respondStatus .unknownCommand
      return (shown response, response.2)) := by
  rw [process, dispatch, h]
  simp [shown]

/-- A response of nothing but a status. -/
theorem shown_respondStatus (engine : Engine) (status : KitStatus) :
    shown (engine.respondStatus status) = Frame.render status.code [] := by
  have hbytes : (engine.transmit.store 0 [status.code]).bytes =
      [] ++ status.code :: ([] ++ engine.transmit.bytes.drop 1) :=
    TransmitBuffer.bytes_store_status _ _
  exact TransmitBuffer.shown_frameFrom hbytes (by decide)

/-- The response to a device command. -/
theorem shown_respondDevice (engine : Engine) (answer : DeviceAnswer) :
    shown (engine.respondDevice answer) =
      Frame.render answer.status (engine.devicePayload answer) := by
  obtain ⟨stored, outcome⟩ := answer
  match outcome with
  -- without a payload the frame is that of the status, whatever was stored behind it
  | .ok .empty | .error _ => exact TransmitBuffer.shown_frameCut_store _ _ 0 (by decide)
  | .ok .counted =>
    let received := engine.transmit.store 1 stored
    -- the count is not checked, but one byte cannot ask for more than a frame can carry
    have hroom : (received.byte 1).toNat + 1 ≤ Frame.payloadMax :=
      Nat.le_trans (received.byte 1).toNat_lt (by decide)
    exact TransmitBuffer.shown_frameCut_store received _ _ hroom

/-- The response to a board command, if there is room for it. -/
theorem shown_respondBoard (engine : Engine) (answer : BoardAnswer)
    (hroom : (Bytes.ofText answer.label).length +
      Frame.framedLength (answer.payload.length + 1) ≤ Frame.bufferSize) :
    shown (engine.respondBoard answer) =
      Bytes.ofText answer.label ++ Frame.render answer.status answer.payload := by
  have hframed := Frame.framedLength_succ answer.payload.length
  generalize hlabel : Bytes.ofText answer.label = label at hroom ⊢
  let filled := (engine.transmit.store 0 label).store label.length (answer.status :: answer.payload)
  -- the status and the payload stand right behind the label, in front of old bytes
  have hfilled : ∃ rest, filled.bytes = label ++ answer.status :: (answer.payload ++ rest) := by
    have hstored : (engine.transmit.store 0 label).bytes =
        label ++ engine.transmit.bytes.drop label.length := by
      simpa using TransmitBuffer.bytes_store engine.transmit 0 label (by omega)
    have hbytes : filled.bytes = _ := TransmitBuffer.bytes_store (engine.transmit.store 0 label)
      label.length (answer.status :: answer.payload) (by simp; omega)
    rw [hstored, List.take_left] at hbytes
    exact ⟨_, by simpa using hbytes⟩
  obtain ⟨rest, hfilled⟩ := hfilled
  have hframe := TransmitBuffer.shown_frameFrom hfilled hroom
  obtain ⟨text, outcome⟩ := answer
  subst hlabel
  cases outcome <;> exact hframe

@[simp]
theorem lock_respondStatus (engine : Engine) (status : KitStatus) :
    (engine.respondStatus status).2.lock = engine.lock := rfl

@[simp]
theorem lock_respondDevice (engine : Engine) (answer : DeviceAnswer) :
    (engine.respondDevice answer).2.lock = engine.lock := rfl

@[simp]
theorem lock_respondBoard (engine : Engine) (answer : BoardAnswer) :
    (engine.respondBoard answer).2.lock = engine.lock := rfl

@[simp]
theorem devices_respondStatus (engine : Engine) (status : KitStatus) :
    (engine.respondStatus status).2.devices = engine.devices := rfl

@[simp]
theorem devices_respondDevice (engine : Engine) (answer : DeviceAnswer) :
    (engine.respondDevice answer).2.devices = engine.devices := rfl

@[simp]
theorem devices_respondBoard (engine : Engine) (answer : BoardAnswer) :
    (engine.respondBoard answer).2.devices = engine.devices := rfl

/-- Carrying out a line leaves the kit lock alone. -/
theorem lock_dispatch (engine : Engine) (line : Bytes) :
    (engine.dispatch line).Ensures fun _ result => result.2.lock = engine.lock := by
  rw [dispatch]
  cases Request.ofReceived line with
  | device command =>
    rw [ensures_bind]
    exact ensures_of_forall fun _ answer => lock_respondDevice _ answer
  | board command =>
    rw [ensures_bind]
    exact ensures_of_forall fun _ result => lock_respondBoard _ result.1
  | unknown => exact lock_respondStatus _ .unknownCommand

/-- Responding to a received line leaves the kit lock alone. -/
theorem lock_respond (engine : Engine) (line : ReceivedLine) :
    (engine.respond line).Ensures fun _ result => result.2.lock = engine.lock := by
  rw [respond]
  split
  · exact lock_respondStatus engine .rxOverflow
  · exact lock_dispatch engine line.data

/-- A poll takes the kit lock for the line it answers, and leaves it alone without a line. -/
theorem lock_poll (engine : Engine) (queue : LineQueue) :
    (engine.poll queue).Ensures fun _ result =>
      result.2.1.lock = if result.1 then engine.lock.arm kitHoldoff else engine.lock := by
  rw [poll]
  cases queue.dequeue? with
  | none => rfl
  | some next =>
    obtain ⟨line, queue⟩ := next
    -- the lock is taken first; neither the answer nor sending it touches the lock after that
    rw [ensures_bind]
    refine (lock_respond _ line).mono fun _ result hlock => ?_
    rw [ensures_bind]
    exact ensures_of_forall fun _ _ => hlock

/-- Of the lines that wait, a poll takes the first out of the queue, and says that there was one. -/
theorem queue_poll (engine : Engine) {queue : LineQueue} {line : ReceivedLine}
    {waiting : List ReceivedLine} (h : queue.lines = line :: waiting) :
    (engine.poll queue).Ensures fun _ result =>
      result.1 = true ∧ result.2.2 = { queue with lines := waiting } := by
  have hdequeue : queue.dequeue? = some (line, { queue with lines := waiting }) := by
    rw [LineQueue.dequeue?, h]
  rw [poll, hdequeue, ensures_bind]
  refine ensures_of_forall fun _ response => ?_
  -- whatever the line calls for and however it is sent, the queue was taken from before
  rw [ensures_bind]
  exact ensures_of_forall fun _ _ => ⟨rfl, rfl⟩

end Engine

end SecureKit

import SecureKit.Proofs.Element.Discovery
import SecureKit.Proofs.Protocol.Engine
import SecureKit.Proofs.Text.Hex

/-!
# The Shape of Responses

Whatever line was received and whatever the peripherals answer, the host gets one frame: a label,
two status digits, and pairs of digits between parentheses, ended by the only newline of the
response.

* `isResponse_render` — a label and a frame for which there is room make up a response.
* `isResponse_respond` — so does what the engine puts into its buffer for any received line.
* `responses_framed` — so do the answers to all lines, long ones included.
-/

namespace SecureKit

open Program

/-- The text in front of a frame. -/
inductive IsLabel : Bytes → Prop
  /-- There is none. -/
  | none : IsLabel []
  /-- The name of a firmware part. -/
  | firmware (part : FirmwarePart) (hpart : part ∈ FirmwarePart.all) :
      IsLabel (Bytes.ofText part.name)
  /-- The name of a device and of its bus. -/
  | device (deviceType : DeviceType) (busType : BusType) :
      IsLabel (Bytes.ofText deviceType.label ++ Bytes.ofText busType.label)

/-- A complete response of the kit. -/
structure IsResponse (response : Bytes) : Prop where
  /-- It is a label, two status digits and a payload of digit pairs between parentheses. -/
  framed : ∃ label status payload,
    IsLabel label ∧ Hex.IsText status ∧ status.length = Hex.digitsPerByte ∧ Hex.IsText payload ∧
      response = label ++ status ++ Frame.opening :: payload ++ [Frame.closing, Frame.terminator]
  /-- It fits into the transmit buffer. -/
  length_le : response.length ≤ Frame.bufferSize
  /-- The terminator stands at its end and nowhere else. -/
  terminator_iff : ∀ i, response[i]? = some Frame.terminator ↔ i + 1 = response.length
  /-- There is one opening parenthesis. -/
  count_opening : response.count Frame.opening = 1
  /-- There is one closing parenthesis. -/
  count_closing : response.count Frame.closing = 1
  /-- No byte is zero. -/
  zero_notMem : 0 ∉ response

/-- A byte that has no meaning in a frame: neither a parenthesis nor the terminator nor zero. -/
def IsPlain (c : UInt8) : Prop :=
  c ≠ Frame.opening ∧ c ≠ Frame.closing ∧ c ≠ Frame.terminator ∧ c ≠ 0

instance (c : UInt8) : Decidable (IsPlain c) := inferInstanceAs (Decidable (_ ∧ _))

/-- A byte that only ends a text stands at its last place and nowhere else. -/
theorem Bytes.getElem?_append_singleton_iff {text : Bytes} {c : UInt8} (h : c ∉ text) (i : Nat) :
    (text ++ [c])[i]? = some c ↔ i + 1 = (text ++ [c]).length := by
  rw [List.length_append, List.length_singleton, Nat.add_right_cancel_iff]
  constructor
  · intro hi
    -- a place within the text would make the byte occur there
    by_cases hlt : i < text.length
    · rw [List.getElem?_append_left hlt] at hi
      exact absurd (List.mem_of_getElem? hi) h
    · have hle : i < (text ++ [c]).length := (List.getElem?_eq_some_iff.1 hi).1
      rw [List.length_append, List.length_singleton] at hle
      omega
  · rintro rfl
    rw [List.getElem?_append_right (Nat.le_refl _), Nat.sub_self]
    rfl

/-- A digit may stand in a label. -/
theorem isPlain_of_isDigit (c : UInt8) : Hex.IsDigit c → IsPlain c := by
  revert c
  exact Bytes.forall_of_fin (by decide +kernel)

/-- The names of the device types may stand in a label. -/
theorem DeviceType.isPlain_label (deviceType : DeviceType) :
    ∀ c ∈ Bytes.ofText deviceType.label, IsPlain c := by
  cases deviceType <;> decide +kernel

theorem BusType.isPlain_label (busType : BusType) :
    ∀ c ∈ Bytes.ofText busType.label, IsPlain c := by
  cases busType <;> decide +kernel

/-- All characters of a label may stand in front of a frame. -/
theorem IsLabel.isPlain {label : Bytes} (h : IsLabel label) : ∀ c ∈ label, IsPlain c := by
  cases h with
  | none => nofun
  | firmware part hpart => revert part; decide +kernel
  | device deviceType busType =>
    intro c hc
    rcases List.mem_append.1 hc with hc | hc
    · exact deviceType.isPlain_label c hc
    · exact busType.isPlain_label c hc

/-- No label is longer than 24 characters. -/
theorem IsLabel.length_le {label : Bytes} (h : IsLabel label) : label.length ≤ 24 := by
  cases h with
  | none => decide
  | firmware part hpart => revert part; decide +kernel
  | device deviceType busType => cases deviceType <;> cases busType <;> decide

/-- A label and a frame for which there is room make up a response. -/
theorem isResponse_render {label payload : Bytes} (status : UInt8) (hlabel : IsLabel label)
    (hroom : label.length + Frame.framedLength (payload.length + 1) ≤ Frame.bufferSize) :
    IsResponse (label ++ Frame.render status payload) := by
  have hstatus := Hex.isText_encode [status]
  have hpayload := Hex.isText_encode payload
  -- the parentheses and the terminator are the only bytes that are not plain
  have hplain : ∀ c, ¬IsPlain c → c ∉ label ∧ c ∉ Hex.encode [status] ∧ c ∉ Hex.encode payload :=
    fun c hc => ⟨fun h => hc (hlabel.isPlain c h),
      fun h => hc (isPlain_of_isDigit c (hstatus.isDigit c h)),
      fun h => hc (isPlain_of_isDigit c (hpayload.isDigit c h))⟩
  have hcount : ∀ c, ¬IsPlain c → (label ++ Frame.render status payload).count c =
      [Frame.opening, Frame.closing, Frame.terminator].count c := by
    intro c hc
    obtain ⟨h₁, h₂, h₃⟩ := hplain c hc
    simp [Frame.render, List.count_append, List.count_cons, List.count_eq_zero.2 h₁,
      List.count_eq_zero.2 h₂, List.count_eq_zero.2 h₃]
  refine ⟨⟨label, Hex.encode [status], Hex.encode payload, hlabel, hstatus, rfl, hpayload, ?_⟩,
    ?_, ?_, ?_, ?_, ?_⟩
  · simp [Frame.render]
  · simpa using hroom
  · intro i
    -- the terminator comes last, and there is none in what is in front of it
    have hsplit : label ++ Frame.render status payload =
        label ++ Hex.encode [status] ++ Frame.opening :: Hex.encode payload ++ [Frame.closing] ++
          [Frame.terminator] := by
      simp [Frame.render]
    obtain ⟨h₁, h₂, h₃⟩ := hplain Frame.terminator (by decide)
    have hbody : Frame.terminator ∉
        label ++ Hex.encode [status] ++ Frame.opening :: Hex.encode payload ++ [Frame.closing] := by
      simp only [List.mem_append, List.mem_cons, List.not_mem_nil, h₁, h₂, h₃]
      decide
    rw [hsplit]
    exact Bytes.getElem?_append_singleton_iff hbody i
  · rw [hcount _ (by decide)]
    rfl
  · rw [hcount _ (by decide)]
    rfl
  · rw [← List.count_eq_zero, hcount _ (by decide)]
    rfl

/-- An answer to a board command that makes up a response. -/
structure BoardAnswer.Fits (answer : BoardAnswer) : Prop where
  /-- The text in front is a label. -/
  isLabel : IsLabel (Bytes.ofText answer.label)
  /-- The payload is short. -/
  length_le : answer.payload.length ≤ 3

namespace BoardAnswer

/-- An answer of nothing but a status makes up a response. -/
theorem fits_of_unlabelled (answer : BoardAnswer) (hlabel : answer.label = "")
    (hpayload : answer.payload = []) : answer.Fits :=
  ⟨by rw [hlabel]; exact .none, by rw [hpayload]; decide⟩

/-- The report about a firmware part makes up a response. -/
theorem fits_ofFirmware (index : UInt8) : (ofFirmware index).Fits := by
  rw [ofFirmware]
  cases hpart : FirmwarePart.at? index with
  | none => exact fits_of_unlabelled _ rfl rfl
  | some part =>
    have hmem : part ∈ FirmwarePart.all := List.mem_of_getElem? hpart
    refine ⟨.firmware part hmem, ?_⟩
    -- there are few parts, so their versions can be looked at one by one
    clear hpart
    revert part
    decide

/-- The report about a device that was found makes up a response. -/
theorem fits_ofDevice {devices : Element.DeviceTable} (index : UInt8)
    (hdevices : devices = [] ∨
      ∃ address revision, devices = [Element.foundDevice address revision]) :
    (ofDevice devices index).Fits := by
  rw [ofDevice]
  cases hinfo : devices[index.toNat]? with
  | none => exact fits_of_unlabelled _ rfl rfl
  | some info =>
    have hmem : info ∈ devices := List.mem_of_getElem? hinfo
    rcases hdevices with rfl | ⟨address, revision, rfl⟩
    · exact absurd hmem (List.not_mem_nil)
    obtain rfl := List.mem_singleton.1 hmem
    -- a revision always names a device, so the refusals of unknown ones do not apply
    have hknown := DeviceType.ofRevision_ne_unknown revision
    have hlabel : Bytes.ofText ((DeviceType.ofRevision revision).label ++ BusType.i2c.label) =
        Bytes.ofText (DeviceType.ofRevision revision).label ++ Bytes.ofText BusType.i2c.label := by
      simp [Bytes.ofText]
    simp only [Element.foundDevice, hknown, if_false, reduceCtorEq]
    exact ⟨hlabel ▸ .device _ _, (by decide : 1 ≤ 3)⟩

end BoardAnswer

/-- The answer to every board command makes up a response. -/
theorem BoardCommand.fits_run (devices : Element.DeviceTable) (command : BoardCommand) :
    (command.run devices).Ensures fun _ result => result.1.Fits := by
  match command with
  | .application none | .version | .unknown | .firmware none | .firmware (some [])
  | .discover none | .discover (some []) => exact BoardAnswer.fits_of_unlabelled _ rfl rfl
  | .application (some load) =>
    rw [run, ensures_bind]
    refine ensures_of_forall fun _ outcome => ?_
    cases outcome <;> exact BoardAnswer.fits_of_unlabelled _ rfl rfl
  | .firmware (some (index :: _)) => exact BoardAnswer.fits_ofFirmware index
  | .discover (some (index :: _)) =>
    rw [run, ensures_bind]
    exact Ensures.mono Element.discover_table fun _ _ h => BoardAnswer.fits_ofDevice index h

namespace Engine

/-- A status is a response. -/
theorem isResponse_respondStatus (engine : Engine) (status : KitStatus) :
    IsResponse (shown (engine.respondStatus status)) := by
  rw [shown_respondStatus]
  exact isResponse_render status.code .none (by decide)

/-- The response to a device command: a count has one byte, so its payload always fits. -/
theorem isResponse_respondDevice (engine : Engine) (answer : DeviceAnswer) :
    IsResponse (shown (engine.respondDevice answer)) := by
  rw [shown_respondDevice]
  refine isResponse_render answer.status .none ?_
  exact Frame.add_framedLength_le (Nat.zero_le _) (engine.length_devicePayload_lt answer)

/-- The response to a board command. -/
theorem isResponse_respondBoard (engine : Engine) {answer : BoardAnswer} (h : answer.Fits) :
    IsResponse (shown (engine.respondBoard answer)) := by
  have hshort : answer.payload.length < 256 := Nat.lt_of_le_of_lt h.length_le (by decide)
  have hroom := Frame.add_framedLength_le h.isLabel.length_le hshort
  rw [shown_respondBoard engine answer hroom]
  exact isResponse_render answer.status h.isLabel hroom

/-- The engine puts a response into its buffer for every line that it carries out. -/
theorem isResponse_dispatch (engine : Engine) (line : Bytes) :
    (engine.dispatch line).Ensures fun _ result => IsResponse (shown result) := by
  rw [dispatch]
  cases Request.ofReceived line with
  | device command =>
    rw [ensures_bind]
    exact ensures_of_forall fun _ answer => isResponse_respondDevice _ answer
  | board command =>
    rw [ensures_bind]
    exact Ensures.mono (command.fits_run engine.devices) fun _ _ h => isResponse_respondBoard _ h
  | unknown => exact isResponse_respondStatus _ .unknownCommand

/-- The engine puts a response into its buffer for every received line. -/
theorem isResponse_respond (engine : Engine) (line : ReceivedLine) :
    (engine.respond line).Ensures fun _ result => IsResponse (shown result) := by
  rw [respond]
  split
  · exact isResponse_respondStatus engine .rxOverflow
  · exact isResponse_dispatch engine line.data

/-- The answer to every line is a response, and so is what a poll sends for a line that was too
long, which makes no other calls than sending. -/
theorem responses_framed {σ : Type} (environment : Environment σ) (state : σ) (engine : Engine)
    (line data : Bytes) (waiting : List ReceivedLine) (capacity : Nat) :
    IsResponse ((engine.process line).run environment state).1.1 ∧
    ∃ response, IsResponse response ∧
      (engine.poll ⟨⟨data, true⟩ :: waiting, capacity⟩).trace environment state =
        (Report.send response).trace environment state := by
  constructor
  · have hprocess : (engine.process line).Ensures fun _ result => IsResponse result.1 := by
      rw [process, ensures_bind]
      exact isResponse_dispatch engine line
    exact hprocess.run environment state
  · -- the line is not looked at, so all there is to do is to send the status
    let armed := { engine with lock := engine.lock.arm kitHoldoff }
    refine ⟨_, armed.isResponse_respondStatus .rxOverflow, ?_⟩
    have hpoll : engine.poll ⟨⟨data, true⟩ :: waiting, capacity⟩ =
        Report.send (shown (armed.respondStatus .rxOverflow)) >>= fun _ =>
        return (true, (armed.respondStatus .rxOverflow).2, ⟨waiting, capacity⟩) := rfl
    rw [hpoll, trace_bind]
    simp

end Engine

end SecureKit

import SecureKit.Proofs.Protocol.Frame
import SecureKit.Protocol.TransmitBuffer

/-!
# The Content of the Transmit Buffer

What the buffer holds up to the end of a frame, in terms of what was stored in it before.

* `bytes_store` — the stored bytes stand between the old ones.
* `shown_frameFrom`, `shown_frameCut` — a frame shows its status and payload.
-/

namespace SecureKit.TransmitBuffer

/-- Bytes for which there is room are stored between the old ones. -/
theorem bytes_store (buffer : TransmitBuffer) (start : Nat) (data : Bytes)
    (h : start + data.length ≤ Frame.bufferSize) :
    (buffer.store start data).bytes =
      buffer.bytes.take start ++ data ++ buffer.bytes.drop (start + data.length) :=
  Bytes.overlay_of_le (by rwa [buffer.length_bytes])

theorem bytes_store_status (buffer : TransmitBuffer) (status : UInt8) :
    (buffer.store 0 [status]).bytes = status :: buffer.bytes.drop 1 :=
  bytes_store buffer 0 [status] (by simp [Frame.bufferSize])

/-- Behind place `start` of a blank buffer, what was stored there is followed by zeros. -/
theorem drop_store_blank (start : Nat) (data : Bytes)
    (h : start + data.length ≤ Frame.bufferSize) :
    (blank.store start data).bytes.drop start =
      data ++ Bytes.zeros (Frame.bufferSize - (start + data.length)) := by
  have hprefix : (blank.bytes.take start).length = start := by
    have := blank.length_bytes
    rw [List.length_take]
    omega
  rw [bytes_store _ _ _ h, List.append_assoc, List.drop_left' hprefix]
  simp [blank, Bytes.zeros]

/-- What a buffer shows that was framed: its content, up to the size of it. -/
def shown (framed : Nat × TransmitBuffer) : Bytes := framed.2.content framed.1

/-- The frame of a status and a payload behind a text, with the text. -/
theorem shown_frameFrom {buffer : TransmitBuffer} {label payload rest : Bytes} {status : UInt8}
    (hbytes : buffer.bytes = label ++ status :: (payload ++ rest))
    (hroom : label.length + Frame.framedLength (payload.length + 1) ≤ Frame.bufferSize) :
    shown (buffer.frameFrom label.length (payload.length + 1)) =
      label ++ Frame.render status payload := by
  have hlength := buffer.length_bytes
  have htail : buffer.bytes.drop label.length = status :: (payload ++ rest) := by
    rw [hbytes, List.drop_left]
  have hfits : Frame.framedLength (payload.length + 1) ≤
      List.length (buffer.bytes.drop label.length) := by
    rw [List.length_drop]
    omega
  show (buffer.bytes.take label.length ++
      (Frame.expand (buffer.bytes.drop label.length) (payload.length + 1)).2).take
        (label.length + (Frame.expand (buffer.bytes.drop label.length) (payload.length + 1)).1) = _
  rw [Frame.expand_succ _ _ hfits, htail, hbytes, List.take_left,
    List.take_length_add_append]
  simp

/-- The frame of a status and a payload that need not be cut. -/
theorem shown_frameCut {buffer : TransmitBuffer} {payload rest : Bytes} {status : UInt8}
    (hbytes : buffer.bytes = status :: (payload ++ rest))
    (hroom : payload.length + 1 ≤ Frame.payloadMax) :
    shown (buffer.frameCut (payload.length + 1)) = Frame.render status payload := by
  have hfits : Frame.framedLength (payload.length + 1) ≤ buffer.bytes.length := by
    rw [buffer.length_bytes]
    exact Frame.framedLength_le hroom
  -- with room for all of the frame it is made as if nothing could be cut
  have hwhole : Frame.expandCut buffer.bytes (payload.length + 1) =
      Frame.expand buffer.bytes (payload.length + 1) := if_neg (by omega)
  show (Frame.expandCut buffer.bytes (payload.length + 1)).2.take
      (Frame.expandCut buffer.bytes (payload.length + 1)).1 = _
  rw [hwhole, Frame.expand_succ _ _ hfits, hbytes]
  simp

/-- The frame of a status that was stored in front of `length` bytes of the buffer. -/
theorem shown_frameCut_store (buffer : TransmitBuffer) (status : UInt8) (length : Nat)
    (hroom : length + 1 ≤ Frame.payloadMax) :
    shown ((buffer.store 0 [status]).frameCut (length + 1)) =
      Frame.render status ((buffer.bytes.drop 1).take length) := by
  -- the bytes behind the status are split where the payload ends
  have hstored : (buffer.store 0 [status]).bytes =
      status :: ((buffer.bytes.drop 1).take length ++ (buffer.bytes.drop 1).drop length) := by
    rw [List.take_append_drop, bytes_store_status]
  have hlength : ((buffer.bytes.drop 1).take length).length = length := by
    have hsize := buffer.length_bytes
    have hframed := Frame.framedLength_le hroom
    rw [Frame.framedLength_succ] at hframed
    rw [List.length_take, List.length_drop]
    omega
  have hframe := shown_frameCut hstored (by omega)
  rwa [hlength] at hframe

end SecureKit.TransmitBuffer

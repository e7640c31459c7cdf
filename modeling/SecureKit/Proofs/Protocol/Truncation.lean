import SecureKit.Proofs.Protocol.Response

/-!
# Responses That Are Cut

A response that does not fit into the transmit buffer is cut, and its status says so. `payloadMax`
is one less than the number of bytes that can be framed, so a response of just that number is cut
as well.

* `framedLength_le_iff` — the responses that fit.
* `framed_of_le`, `framed_of_lt` — what is framed up to `payloadMax` bytes, and beyond.
* `frameCut_truncates` — what is cut, and what is left of it.
-/

namespace SecureKit

/-- A response fits as long as its frame does, which has one byte of the buffer to spare. -/
theorem Frame.framedLength_le_iff (count : Nat) :
    framedLength (count + 1) ≤ bufferSize ↔ count + 1 ≤ payloadMax + 1 := by
  have hsize : bufferSize = 2300 := rfl
  have hmax : payloadMax = 1147 := rfl
  rw [framedLength_succ]
  omega

namespace TransmitBuffer

/-- The payload of `count` bytes behind the status. -/
def payload (buffer : TransmitBuffer) (count : Nat) : Bytes := (buffer.bytes.drop 1).take count

/-- What framing leaves: the frame of a status and a payload, in front of the bytes that the buffer
has held there. -/
structure Framed (buffer : TransmitBuffer) (status : UInt8) (payload : Bytes)
    (framed : Nat × TransmitBuffer) : Prop where
  size_eq : framed.1 = Frame.framedLength (payload.length + 1)
  bytes_eq : framed.2.bytes = Frame.render status payload ++ buffer.bytes.drop framed.1

/-- A payload that fits is taken in full. -/
theorem length_payload (buffer : TransmitBuffer) {count : Nat} (h : count < Frame.bufferSize) :
    (buffer.payload count).length = count := by
  have hlength := buffer.length_bytes
  rw [payload, List.length_take, List.length_drop]
  omega

section Framed

variable {buffer : TransmitBuffer} {status : UInt8} {payload : Bytes}
  {framed : Nat × TransmitBuffer}

/-- What is shown of the buffer is the frame. -/
theorem Framed.shown_eq (h : Framed buffer status payload framed) :
    shown framed = Frame.render status payload := by
  rw [shown, content, h.bytes_eq, h.size_eq, ← Frame.length_render status, List.take_left]

/-- What is behind the frame stays as it was. -/
theorem Framed.drop_eq (h : Framed buffer status payload framed) :
    framed.2.bytes.drop framed.1 = buffer.bytes.drop framed.1 := by
  have hlength : (Frame.render status payload).length = framed.1 := by
    rw [h.size_eq, Frame.length_render]
  rw [h.bytes_eq, List.drop_left' hlength]

/-- A frame that fits is a response. -/
theorem Framed.isResponse (h : Framed buffer status payload framed)
    (hroom : Frame.framedLength (payload.length + 1) ≤ Frame.bufferSize) :
    IsResponse (shown framed) := by
  rw [h.shown_eq]
  exact isResponse_render status .none (by simpa using hroom)

end Framed

section Framing

variable (buffer : TransmitBuffer)

theorem exists_bytes_eq_cons : ∃ first rest, buffer.bytes = first :: rest := by
  have hlength := buffer.length_bytes
  cases hbytes : buffer.bytes with
  | cons first rest => exact ⟨first, rest, rfl⟩
  | nil =>
    rw [hbytes] at hlength
    cases hlength

/-- The bytes with another status in front. -/
theorem set_status (status : UInt8) :
    buffer.bytes.set 0 status = status :: buffer.bytes.drop 1 := by
  obtain ⟨first, rest, hbytes⟩ := buffer.exists_bytes_eq_cons
  rw [hbytes]
  rfl

/-- The first byte of the buffer is the status. -/
theorem eq_status_cons : buffer.bytes = buffer.byte 0 :: buffer.bytes.drop 1 := by
  obtain ⟨first, rest, hbytes⟩ := buffer.exists_bytes_eq_cons
  rw [byte, hbytes]
  rfl

/-- Framing a status and `count` bytes for which there is room, which may be fewer than were asked
for. -/
theorem framed_of_expand {status : UInt8} {count length : Nat} (h : count + 1 ≤ Frame.payloadMax)
    (hframed : Frame.expandCut buffer.bytes length =
      Frame.expand (status :: buffer.bytes.drop 1) (count + 1)) :
    Framed buffer status (buffer.payload count) (buffer.frameCut length) := by
  have hpayload : (buffer.payload count).length = count :=
    buffer.length_payload (Nat.lt_of_lt_of_le h (by decide))
  have hroom : Frame.framedLength (count + 1) ≤ (status :: buffer.bytes.drop 1).length := by
    rw [← buffer.set_status, List.length_set, buffer.length_bytes]
    exact Frame.framedLength_le h
  -- the frame covers the status, so the bytes after it are those of the buffer
  have hrest : (status :: buffer.bytes.drop 1).drop (Frame.framedLength (count + 1)) =
      buffer.bytes.drop (Frame.framedLength (count + 1)) := by
    rw [Frame.framedLength_succ, List.drop_succ_cons, List.drop_drop, Nat.add_comm 1]
  rw [Frame.expand_succ _ _ hroom, hrest] at hframed
  have hsize : (buffer.frameCut length).1 = Frame.framedLength (count + 1) :=
    congrArg Prod.fst hframed
  refine ⟨by rw [hsize, hpayload], ?_⟩
  rw [hsize]
  exact congrArg Prod.snd hframed

/-- Up to `payloadMax` bytes the whole response is framed. -/
theorem framed_of_le {count : Nat} (h : count + 1 ≤ Frame.payloadMax) :
    Framed buffer (buffer.byte 0) (buffer.payload count) (buffer.frameCut (count + 1)) := by
  refine buffer.framed_of_expand h ?_
  rw [← eq_status_cons, Frame.expandCut, if_neg (Nat.not_lt.2 h)]

/-- Beyond `payloadMax` bytes the response is cut to them, with a status that says so. -/
theorem framed_of_lt {length : Nat} (h : Frame.payloadMax < length) :
    Framed buffer KitStatus.txOverflow.code (buffer.payload (Frame.payloadMax - 1))
      (buffer.frameCut length) := by
  refine buffer.framed_of_expand (by decide) ?_
  rw [← set_status, Frame.expandCut, if_pos h]
  rfl

end Framing

/-- A response is cut if it does not fit, and then carries a status that says so; if it fits it is
sent as it is, with one exception: a response of `payloadMax + 1` bytes is the largest one that
fits, and is cut. In all cases there is a complete response in the buffer, and the bytes after it
are kept. -/
theorem frameCut_truncates (buffer : TransmitBuffer) (count : Nat) :
    let length := count + 1
    let framed := buffer.frameCut length
    let whole := Framed buffer (buffer.byte 0) (buffer.payload count) framed
    let cut :=
      Framed buffer KitStatus.txOverflow.code (buffer.payload (Frame.payloadMax - 1)) framed
    (Frame.framedLength length ≤ Frame.bufferSize → length ≠ Frame.payloadMax + 1 → whole) ∧
      (Frame.bufferSize < Frame.framedLength length ∨ length = Frame.payloadMax + 1 → cut) ∧
      (Frame.framedLength length ≤ Frame.bufferSize ↔ length ≤ Frame.payloadMax + 1) ∧
      IsResponse (shown framed) ∧
      framed.2.bytes.drop framed.1 = buffer.bytes.drop framed.1 := by
  intro length framed whole cut
  have hfits : Frame.framedLength length ≤ Frame.bufferSize ↔ length ≤ Frame.payloadMax + 1 :=
    Frame.framedLength_le_iff count
  -- the cut is decided by `payloadMax`, which is one less than what fits
  by_cases hle : length ≤ Frame.payloadMax
  · have hwhole : whole := buffer.framed_of_le hle
    have hlength : (buffer.payload count).length = count :=
      buffer.length_payload (Nat.lt_of_lt_of_le hle (by decide))
    refine ⟨fun _ _ => hwhole, fun hcut => ?_, hfits, hwhole.isResponse ?_, hwhole.drop_eq⟩
    · omega
    · rw [hlength]
      exact Frame.framedLength_le hle
  · have hcut : cut := buffer.framed_of_lt (Nat.not_le.1 hle)
    have hlength := buffer.length_payload (by decide : Frame.payloadMax - 1 < Frame.bufferSize)
    refine ⟨fun hroom hne => ?_, fun _ => hcut, hfits, hcut.isResponse ?_, hcut.drop_eq⟩
    · omega
    · rw [hlength]
      decide

/-- Not every response that fits is framed as it is. -/
theorem frameCut_cuts_largest :
    ¬∀ (buffer : TransmitBuffer) (count : Nat),
      Frame.framedLength (count + 1) ≤ Frame.bufferSize →
        Framed buffer (buffer.byte 0) (buffer.payload count) (buffer.frameCut (count + 1)) := by
  intro h
  have hwhole := (h blank Frame.payloadMax (by decide)).size_eq
  have hcut := (blank.framed_of_lt (Nat.lt_succ_self Frame.payloadMax)).size_eq
  rw [hwhole, blank.length_payload (by decide), blank.length_payload (by decide)] at hcut
  exact absurd hcut (by decide)

end TransmitBuffer

end SecureKit

import SecureKit.Protocol.Status
import SecureKit.Text.Hex

/-!
# Response Frames

A response is framed as `<status>(<payload>)` and a newline, with all bytes in hex. `render` is the
text of a frame. `expand` makes it within the buffer that holds status and payload, from back to
front, so that no byte is overwritten before it was written out.

* `length_render` — the text of a frame has `framedLength` bytes.
* `framedLength_payloadMax` — `payloadMax` bytes can be framed in a transmit buffer.
-/

namespace SecureKit.Frame

/-- The byte that ends commands and responses. -/
def terminator : UInt8 := Bytes.ascii '\n'

/-- The byte in front of a payload. -/
def opening : UInt8 := Bytes.ascii '('

/-- The byte after a payload. -/
def closing : UInt8 := Bytes.ascii ')'

/-- The bytes of a frame without a payload: two status digits, two parentheses, the terminator. -/
def overhead : Nat := 5

/-- The size of the transmit buffer. -/
def bufferSize : Nat := 2300

/-- The number of bytes, the status included, to which a response is cut for the transmit buffer.
One more would still fit, as the size of a frame counts the digits of the status with the
overhead. -/
def payloadMax : Nat := (bufferSize - overhead) / Hex.digitsPerByte

/-- The size of the frame of `length` bytes, the status included. -/
def framedLength (length : Nat) : Nat := Hex.digitsPerByte * (length - 1) + overhead

/-- The text of a frame. -/
def render (status : UInt8) (payload : Bytes) : Bytes :=
  Hex.encode [status] ++ opening :: Hex.encode payload ++ [closing, terminator]

/-- Write byte `i` of a buffer as digits at `2 * i + 1` and `2 * i + 2`. -/
def spread (buffer : Bytes) (i : Nat) : Bytes :=
  let byte := buffer.getD i 0
  (buffer.set (2 * i + 2) (Hex.lowDigit byte)).set (2 * i + 1) (Hex.highDigit byte)

/-- Write bytes `count` down to 1 of a buffer as digits. -/
def spreadDown : (count : Nat) → Bytes → Bytes
  | 0, buffer => buffer
  | count + 1, buffer => spreadDown count (spread buffer (count + 1))

/-- Frame the first `length` bytes of a buffer, of which the first is the status, within the buffer.
Returns the size of the frame and the buffer. If there is nothing to frame, or not enough room for
the frame, the size is zero and the buffer is left as it is. -/
def expand (buffer : Bytes) (length : Nat) : Nat × Bytes :=
  let size := framedLength length
  if length = 0 ∨ buffer.length < size then (0, buffer)
  else
    let ended := (buffer.set (size - 1) terminator).set (size - 2) closing
    let payload := (spreadDown (length - 1) ended).set 2 opening
    let status := payload.getD 0 0
    (size, (payload.set 1 (Hex.lowDigit status)).set 0 (Hex.highDigit status))

/-- Frame the first `length` bytes of a buffer within the buffer. More than `payloadMax` bytes are
cut to that number and get the status `KitStatus.txOverflow`. -/
def expandCut (buffer : Bytes) (length : Nat) : Nat × Bytes :=
  if payloadMax < length then expand (buffer.set 0 KitStatus.txOverflow.code) payloadMax
  else expand buffer length

/-- The text of a frame has the size that is calculated for it. -/
@[simp]
theorem length_render (status : UInt8) (payload : Bytes) :
    (render status payload).length = framedLength (payload.length + 1) := by
  simp [render, framedLength, overhead, Hex.digitsPerByte, Hex.encode]

/-- There is room in the transmit buffer for what a response is cut to. -/
theorem framedLength_payloadMax : framedLength payloadMax ≤ bufferSize := by
  decide

@[simp]
theorem length_spread (buffer : Bytes) (i : Nat) : (spread buffer i).length = buffer.length := by
  simp [spread]

/-- Spreading bytes keeps the size of the buffer. -/
@[simp]
theorem length_spreadDown (count : Nat) (buffer : Bytes) :
    (spreadDown count buffer).length = buffer.length := by
  induction count generalizing buffer with
  | zero => rfl
  | succ count ih => simp [spreadDown, ih]

/-- Framing keeps the size of the buffer. -/
@[simp]
theorem length_expand (buffer : Bytes) (length : Nat) :
    (expand buffer length).2.length = buffer.length := by
  unfold expand
  dsimp only
  split <;> simp

/-- Framing keeps the size of the buffer, also when it cuts. -/
@[simp]
theorem length_expandCut (buffer : Bytes) (length : Nat) :
    (expandCut buffer length).2.length = buffer.length := by
  unfold expandCut
  split <;> simp

end SecureKit.Frame

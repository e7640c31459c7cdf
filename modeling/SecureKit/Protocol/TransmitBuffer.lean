import SecureKit.Protocol.Frame

/-!
# The Transmit Buffer

The buffer in which responses are put together and framed. It is used again for every response, so
what an operation leaves behind in it matters: storing keeps all bytes it does not write, and
framing all bytes after the frame.
-/

namespace SecureKit

/-- A buffer of `Frame.bufferSize` bytes. -/
structure TransmitBuffer where
  /-- The content. -/
  bytes : Bytes
  /-- The size does not change. -/
  length_bytes : bytes.length = Frame.bufferSize

namespace TransmitBuffer

/-- The buffer with zero bytes only. -/
def blank : TransmitBuffer where
  bytes := Bytes.zeros Frame.bufferSize
  length_bytes := by simp

/-- Write bytes from place `start` on. -/
def store (buffer : TransmitBuffer) (start : Nat) (data : Bytes) : TransmitBuffer where
  bytes := buffer.bytes.overlay start data
  length_bytes := by simp [buffer.length_bytes]

/-- The byte at a place. -/
def byte (buffer : TransmitBuffer) (i : Nat) : UInt8 := buffer.bytes.getD i 0

/-- Frame the first `length` bytes, cut to what fits. Returns the size of the frame. -/
def frameCut (buffer : TransmitBuffer) (length : Nat) : Nat × TransmitBuffer :=
  ((Frame.expandCut buffer.bytes length).1,
    { bytes := (Frame.expandCut buffer.bytes length).2
      length_bytes := by simp [buffer.length_bytes] })

/-- Frame `length` bytes from place `start` on, which is within the buffer. Returns the size of the
content up to the end of the frame. -/
def frameFrom (buffer : TransmitBuffer) (start length : Nat) : Nat × TransmitBuffer :=
  let framed := Frame.expand (buffer.bytes.drop start) length
  (start + framed.1,
    { bytes := buffer.bytes.take start ++ framed.2
      length_bytes := by
        have := buffer.length_bytes
        simp [framed]
        omega })

/-- The first `size` bytes. -/
def content (buffer : TransmitBuffer) (size : Nat) : Bytes := buffer.bytes.take size

end TransmitBuffer

end SecureKit

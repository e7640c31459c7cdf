import SecureKit.Element.Discovery
import SecureKit.Text.Base64

/-!
# Public Keys

The device computes the public key that belongs to a private key in one of its slots. The key is
exported as PEM text, for which a buffer needs room for `PublicKey.pemSize` bytes.
-/

namespace SecureKit

/-- A point on the curve P-256: both coordinates, most significant byte first. -/
abbrev PublicKey := Vector UInt8 64

/-- A failure of the key export. -/
inductive PublicKey.Error where
  /-- The device failed. -/
  | device (error : DeviceError)
  /-- The response was malformed or damaged. -/
  | invalidResponse
  /-- The output buffer is too small. -/
  | bufferTooSmall
  deriving DecidableEq

namespace PublicKey

open Program

/-- The size of a key. -/
def size : Nat := 64

/-- The bytes in front of a key in its standard container, which names key type and curve. -/
def header : Bytes :=
  [0x30, 0x59, 0x30, 0x13, 0x06, 0x07, 0x2A, 0x86, 0x48, 0xCE, 0x3D, 0x02, 0x01, 0x06, 0x08,
    0x2A, 0x86, 0x48, 0xCE, 0x3D, 0x03, 0x01, 0x07, 0x03, 0x42, 0x00, 0x04]

/-- The line in front of the key text. -/
def opening : Bytes := Bytes.ofText "-----BEGIN PUBLIC KEY-----\r\n"

/-- The line after the key text. -/
def closing : Bytes := Bytes.ofText "\r\n-----END PUBLIC KEY-----\r\n"

/-- The size of every PEM text. -/
def pemSize : Nat :=
  opening.length + Base64.encodedLength (header.length + size) + closing.length

/-- The packet that asks for the public key of a slot. -/
def packet (slot : UInt16) : Bytes :=
  Element.withChecksum
    [0x07, Command.genKey.opcode, Command.genKeyPublic, slot.toUInt8, (slot >>> 8).toUInt8]

/-- The key in a response, of which `length` bytes were received. -/
def ofResponse (length : Nat) (response : Bytes) : Except Error PublicKey :=
  if length = response.length ∧ (response.headD 0).toNat = response.length ∧
      Checksum.holds response then
    .ok (response.window 1 size)
  else .error .invalidResponse

/-- Read the public key of a slot. -/
def read (slot : UInt16) : Program (Except Error PublicKey) := do
  let exchange ← Element.talk (packet slot) Element.pairResponse
  match exchange.outcome with
  | .error error => return .error (.device error)
  | .ok length =>
    return ofResponse length ((Bytes.zeros Element.pairResponse).overlay 0 exchange.stored)

/-- A key in its standard container. -/
def container (key : PublicKey) : Bytes := header ++ key.toList

/-- Write the PEM text of a key into a buffer, each part behind the one before. Returns the text,
which has to be UTF-8, and the buffer. -/
def writePem (key : PublicKey) (buffer : Bytes) : Except Error Bytes × Bytes :=
  if buffer.length < pemSize then (.error .bufferTooSmall, buffer)
  else
    let opened := buffer.overlay 0 opening
    let body := Base64.encode key.container
    -- the encoder looks at the room behind the first line again
    if buffer.length - opening.length < body.length then (.error .bufferTooSmall, opened)
    else
      let stop := opening.length + body.length
      let closed := (opened.overlay opening.length body).overlay stop closing
      let pem : Bytes := closed.take (stop + closing.length)
      if pem.text?.isSome then (.ok pem, closed) else (.error .invalidResponse, closed)

end PublicKey

end SecureKit

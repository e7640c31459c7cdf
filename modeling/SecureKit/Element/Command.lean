import SecureKit.Element.Error
import SecureKit.Text.Bytes

/-!
# Command Table

The commands a secure element understands, with the length of their responses and the time a device
may take to execute them. A command packet is counted: byte 0 holds the length of the packet, byte 1
the opcode and byte 2 the first parameter.

* `ofOpcode?_opcode` and `opcode_of_ofOpcode?` — opcodes name commands one to one.
* `responseLength_le` — every response fits into `Element.responseMax` bytes.
-/

namespace SecureKit

namespace Element

/-- The largest command packet that is forwarded to a device. -/
def commandMax : Nat := 151

/-- The largest response packet of a device. -/
def responseMax : Nat := 100

/-- The length of a response that holds one status byte. -/
def statusResponse : Nat := 4

/-- The length of a response that holds four data bytes. -/
def wordResponse : Nat := 7

/-- The length of a response that holds 32 data bytes. -/
def blockResponse : Nat := 35

/-- The length of a response that holds 64 data bytes. -/
def pairResponse : Nat := 67

end Element

/-- A command of the secure element. -/
inductive Command where
  /-- Verify a MAC computed elsewhere. -/
  | checkMac
  /-- Increment or read a monotonic counter. -/
  | counter
  /-- Derive a key into a slot. -/
  | deriveKey
  /-- ECDH key agreement. -/
  | ecdh
  /-- Mix a slot value into the temporary key. -/
  | genDig
  /-- Generate a key pair or compute a public key. -/
  | genKey
  /-- HMAC/SHA-256 digest. -/
  | hmac
  /-- Revision and state information. -/
  | info
  /-- Lock a zone or slot. -/
  | lock
  /-- SHA-256 MAC. -/
  | mac
  /-- Load the temporary key from a nonce. -/
  | nonce
  /-- Put the devices that do not match a selector into idle mode. -/
  | pause
  /-- Write a private key. -/
  | privWrite
  /-- Random number. -/
  | random
  /-- Read 4 or 32 bytes. -/
  | read
  /-- SHA-256 hashing. -/
  | sha
  /-- ECDSA signature. -/
  | sign
  /-- Update the extra configuration bytes. -/
  | updateExtra
  /-- ECDSA verification. -/
  | verify
  /-- Write 4 or 32 bytes. -/
  | write
  deriving DecidableEq

namespace Command

/-- The opcode of a command. -/
def opcode : Command → UInt8
  | checkMac => 0x28
  | counter => 0x24
  | deriveKey => 0x1C
  | ecdh => 0x43
  | genDig => 0x15
  | genKey => 0x40
  | hmac => 0x11
  | info => 0x30
  | lock => 0x17
  | mac => 0x08
  | nonce => 0x16
  | pause => 0x01
  | privWrite => 0x46
  | random => 0x1B
  | read => 0x02
  | sha => 0x47
  | sign => 0x41
  | updateExtra => 0x20
  | verify => 0x45
  | write => 0x12

/-- All commands. -/
def all : List Command :=
  [checkMac, counter, deriveKey, ecdh, genDig, genKey, hmac, info, lock, mac, nonce, pause,
    privWrite, random, read, sha, sign, updateExtra, verify, write]

/-- The command an opcode stands for. -/
def ofOpcode? (opcode : UInt8) : Option Command := all.find? (·.opcode == opcode)

/-- Mode of `genKey` that computes the public key of an existing private key. -/
def genKeyPublic : UInt8 := 0x00

/-- Mode of `genKey` that produces only a digest. -/
def genKeyDigest : UInt8 := 0x08

/-- Mode of `nonce` that loads the caller's value. -/
def noncePassThrough : UInt8 := 0x03

/-- Zone bit of `read` that asks for 32 bytes. -/
def readBlock : UInt8 := 0x80

/-- Mode of `sha` that finishes the digest. -/
def shaEnd : UInt8 := 0x02

/-- The length of the response to a command with first parameter `param1`. -/
def responseLength (command : Command) (param1 : UInt8) : Nat :=
  match command with
  | checkMac | deriveKey | genDig | lock | pause | privWrite | updateExtra | verify | write =>
    Element.statusResponse
  | counter | info => Element.wordResponse
  | ecdh | hmac | mac | random => Element.blockResponse
  | sign => Element.pairResponse
  | genKey => if param1 = genKeyDigest then Element.statusResponse else Element.pairResponse
  | nonce => if param1 = noncePassThrough then Element.statusResponse else Element.blockResponse
  | read => if param1 &&& readBlock ≠ 0 then Element.blockResponse else Element.wordResponse
  | sha => if param1 = shaEnd then Element.blockResponse else Element.statusResponse

/-- The longest time a device takes for a command, in milliseconds. -/
def executionTime : Command → UInt32
  | checkMac => 13
  | counter => 20
  | deriveKey => 50
  | ecdh => 58
  | genDig => 11
  | genKey => 115
  | hmac => 23
  | info => 1
  | lock => 32
  | mac => 14
  | nonce => 7
  | pause => 3
  | privWrite => 48
  | random => 23
  | read => 1
  | sha => 9
  | sign => 60
  | updateExtra => 10
  | verify => 72
  | write => 26

/-- The execution time an interface assumes for `opcode` unless it knows better. -/
def defaultExecutionTime (opcode : UInt8) : Except DeviceError UInt32 :=
  match ofOpcode? opcode with
  | some command => .ok command.executionTime
  | none => .error .badOpcode

/-- The command carried by a counted packet and its first parameter. Packets too short to hold both
carry none. -/
def ofPacket? (packet : Bytes) : Option (Command × UInt8) := do
  let opcode ← packet[1]?
  let param1 ← packet[2]?
  let command ← ofOpcode? opcode
  return (command, param1)

/-- Looking up the opcode of a command gives the command. -/
@[simp]
theorem ofOpcode?_opcode (command : Command) : ofOpcode? command.opcode = some command := by
  cases command <;> rfl

/-- A command is found under its own opcode only. -/
theorem opcode_of_ofOpcode? {opcode : UInt8} {command : Command}
    (h : ofOpcode? opcode = some command) : command.opcode = opcode := by
  simpa using List.find?_some h

/-- Every response fits into the largest one. -/
theorem responseLength_le (command : Command) (param1 : UInt8) :
    command.responseLength param1 ≤ Element.responseMax := by
  unfold responseLength
  split <;> first | decide | (split <;> decide)

/-- Every response has room for a count, a status byte and a checksum. -/
theorem le_responseLength (command : Command) (param1 : UInt8) :
    Element.statusResponse ≤ command.responseLength param1 := by
  unfold responseLength
  split <;> first | decide | (split <;> decide)

end Command

end SecureKit

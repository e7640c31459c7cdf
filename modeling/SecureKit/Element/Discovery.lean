import SecureKit.Element.Checksum
import SecureKit.Element.Transaction

/-!
# Discovery

A device is found by asking for its revision: first at the address in use, then at the even
addresses of the scanned range, until one answers. A response that is short, wrongly counted or
damaged is no answer (`revisionOf`).
-/

namespace SecureKit.Element

open Program

/-- The devices the kit keeps track of. -/
abbrev DeviceTable := List DeviceInfo

/-- The number of devices the kit keeps track of. -/
def devicesMax : Nat := 1

/-- The first address that is scanned. -/
def scanStart : UInt8 := 0xB0

/-- The address at which the scan ends. -/
def scanEnd : UInt8 := 0xC8

/-- The addresses that are scanned, in order. -/
def scanned : List UInt8 :=
  (List.range ((scanEnd - scanStart).toNat / 2)).map fun i => scanStart + (2 * i).toUInt8

/-- `packet` with its checksum. -/
def withChecksum (packet : Bytes) : Bytes := packet ++ Checksum.of packet

/-- The packet that asks for the revision. -/
def revisionPacket : Bytes := withChecksum [0x07, Command.info.opcode, 0x00, 0x00, 0x00]

/-- The revision in a response, of which `length` bytes were received. -/
def revisionOf (length : Nat) (response : Bytes) : Except DeviceError Revision :=
  if length < response.length ∨ (response.headD 0).toNat ≠ response.length then .error .invalidSize
  else if !Checksum.holds response then .error .rxCrcError
  else .ok (response.window 1 4)

/-- Read the revision of the device at the address in use. -/
def readRevision : Program (Except DeviceError Revision) := do
  let exchange ← talk revisionPacket wordResponse
  match exchange.outcome with
  | .error error => return .error error
  | .ok length => return revisionOf length ((Bytes.zeros wordResponse).overlay 0 exchange.stored)

/-- Probe addresses in order as long as the probe before has failed; `result` is that of the last
probe. -/
def scan : List UInt8 → Except DeviceError Revision → Program (Except DeviceError Revision)
  | address :: rest, .error _ => do
    select address
    scan rest (← readRevision)
  | _, result => return result

/-- Look for a device. Returns the new table, and the bus of the device or the error of the last
probe. A device that was found stays addressed. -/
def discover : Program (DeviceTable × Except DeviceError BusType) := do
  match ← scan scanned (← readRevision) with
  | .error error => return ([], .error error)
  | .ok revision =>
    -- the address in use is still the one of the last probe
    let info : DeviceInfo :=
      { busType := .i2c
        deviceType := .ofRevision revision
        address := ← perform .address
        deviceIndex := 0
        revision }
    return ([info], .ok info.busType)

end SecureKit.Element

/-!
# Firmware Parts

The names and versions that the board reports about its firmware.
-/

namespace SecureKit

/-- A part of the firmware. -/
structure FirmwarePart where
  /-- Its name. -/
  name : String
  /-- Its version: three numbers. -/
  version : List UInt8
  deriving DecidableEq

namespace FirmwarePart

/-- The parts in the order of their index. -/
def all : List FirmwarePart := [
  ⟨"AT88CK101STK ", [0x01, 0x00, 0x05]⟩,
  ⟨"SHA204 ", [0x01, 0x03, 0x00]⟩,
  ⟨"AES132 ", [0x01, 0x01, 0x00]⟩,
  ⟨"ECC108 ", [0x01, 0x01, 0x00]⟩]

/-- The part at an index. -/
def at? (index : UInt8) : Option FirmwarePart := all[index.toNat]?

end FirmwarePart

end SecureKit

import SecureKit.Text.Bytes

/-!
# Device Identity

What the kit knows about a secure element: the bus it answered on, its family and its address. The
names are those that the board command for discovery reports to the host.
-/

namespace SecureKit

/-- The bus a device is attached to. -/
inductive BusType where
  /-- Nothing was found. -/
  | unknown
  | spi
  /-- I2C, which the host tools call TWI. -/
  | i2c
  /-- A single-wire bus. -/
  | swi
  | uart
  deriving DecidableEq

namespace BusType

/-- The number of a bus. -/
def code : BusType → Nat
  | unknown => 0
  | spi => 1
  | i2c => 2
  | swi => 3
  | uart => 4

/-- The name of a bus in a discovery response. -/
def label : BusType → String
  | unknown => "no_device "
  | spi => "SPI "
  | i2c => "TWI "
  | swi => "SWI "
  | uart => "UART "

end BusType

/-- The family of a device. Families before `sha204` are known by name only. -/
inductive DeviceType where
  | unknown
  | cm
  | crf
  | cmc
  | sa100s
  | sa102s
  | sa10hs
  | sha204
  | aes132
  | ecc108
  | ecc108a
  | ecc508a
  | ecc608a
  deriving DecidableEq

/-- The four revision bytes a device reports about itself. -/
abbrev Revision := Vector UInt8 4

namespace DeviceType

/-- The family of an ECC device, told by the third of its revision bytes. -/
def ofRevision (revision : Revision) : DeviceType :=
  if revision[2] = 0x50 then ecc508a
  else if revision[2] = 0x60 then ecc608a
  else ecc108a

/-- The name of a family in a discovery response. All ECC devices have the name of the first. -/
def label : DeviceType → String
  | unknown => BusType.unknown.label
  | sha204 => "SHA204 "
  | aes132 => "AES132 "
  | ecc108 | ecc108a | ecc508a | ecc608a => "ECC108 "
  | cm | crf | cmc | sa100s | sa102s | sa10hs => "unknown_device"

/-- A revision never classifies as an unknown device. -/
theorem ofRevision_ne_unknown (revision : Revision) : ofRevision revision ≠ unknown := by
  unfold ofRevision
  repeat' split
  all_goals simp

end DeviceType

/-- A device the kit has found. -/
structure DeviceInfo where
  /-- The bus it answered on. -/
  busType : BusType
  /-- Its family. -/
  deviceType : DeviceType
  /-- Its I2C address in 8-bit form. -/
  address : UInt8
  /-- Its pin on a bus that selects devices by a pin. -/
  deviceIndex : UInt8
  /-- Its revision. -/
  revision : Revision
  deriving DecidableEq

namespace DeviceInfo

/-- The byte that singles out a device on its bus: the address on I2C, else the pin. -/
def selector (info : DeviceInfo) : UInt8 :=
  if info.busType = .i2c then info.address else info.deviceIndex

end DeviceInfo

end SecureKit

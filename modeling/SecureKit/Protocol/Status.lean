import SecureKit.Element.Error

/-!
# Kit Status

Every response starts with a status byte. The kit has codes of its own next to those of the device
library, which a response forwards.
-/

namespace SecureKit

/-- A status of the kit itself. -/
inductive KitStatus where
  /-- The command was completed. -/
  | success
  /-- The selector or sub-command is not known. -/
  | unknownCommand
  /-- The received line was too long. -/
  | rxOverflow
  /-- The response was too long and was cut. -/
  | txOverflow
  /-- A data load is missing or unusable. -/
  | invalidParams
  /-- The interface does not have the requested function. -/
  | invalidIfFunction
  /-- There is no device at the requested index. -/
  | noDevice
  deriving DecidableEq

namespace KitStatus

/-- The status byte. -/
def code : KitStatus → UInt8
  | success => 0x00
  | unknownCommand => 0xC0
  | rxOverflow => 0xC1
  | txOverflow => 0xC2
  | invalidParams => 0xC3
  | invalidIfFunction => 0xC4
  | noDevice => 0xC5

/-- All statuses. -/
def all : List KitStatus :=
  [success, unknownCommand, rxOverflow, txOverflow, invalidParams, invalidIfFunction, noDevice]

/-- The status a byte stands for. -/
def ofCode? (code : UInt8) : Option KitStatus := all.find? (·.code == code)

/-- The byte of a status stands for it. -/
@[simp]
theorem ofCode?_code (status : KitStatus) : ofCode? status.code = some status := by
  cases status <;> rfl

end KitStatus

/-- Why a command failed. -/
inductive Failure where
  /-- The kit refused it. -/
  | kit (status : KitStatus)
  /-- The device, or a check on its behalf, failed. -/
  | device (error : DeviceError)
  deriving DecidableEq

namespace Failure

/-- The status byte that reports a failure. -/
def code : Failure → UInt8
  | kit status => status.code
  | device error => error.code

end Failure

end SecureKit

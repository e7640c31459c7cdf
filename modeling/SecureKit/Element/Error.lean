/-!
# Device Errors

Why a transaction with the secure element failed. Every cause has a status code of its own, which
the host receives unchanged.
-/

namespace SecureKit

/-- A failure reported by the secure element, its library or the bus it is attached to. -/
inductive DeviceError where
  /-- The wake token was not acknowledged. -/
  | wakeFailed
  /-- A response could not be understood. -/
  | parseError
  /-- The device found a checksum error in the command it received. -/
  | statusCrc
  /-- A function failed without a more precise reason. -/
  | funcFail
  /-- A parameter is invalid. -/
  | badParam
  /-- A packet has the wrong size. -/
  | invalidSize
  /-- The checksum of a response is wrong. -/
  | rxCrcError
  /-- Receiving failed. -/
  | rxFail
  /-- No response arrived. -/
  | rxNoResponse
  /-- Sending timed out. -/
  | txTimeout
  /-- Receiving timed out. -/
  | rxTimeout
  /-- A buffer is too small. -/
  | smallBuffer
  /-- The bus failed. -/
  | commFail
  /-- An operation timed out. -/
  | timeout
  /-- The device does not know the opcode. -/
  | badOpcode
  /-- The device failed to execute a command. -/
  | executionError
  /-- Sending failed. -/
  | txFail
  /-- There is no device. -/
  | noDevices
  /-- A status of the device library that has no name here. -/
  | other (code : UInt8)
  deriving DecidableEq

namespace DeviceError

/-- The status code of a failure. -/
def code : DeviceError → UInt8
  | wakeFailed => 0xD0
  | parseError => 0xD2
  | statusCrc => 0xD4
  | funcFail => 0xE0
  | badParam => 0xE2
  | invalidSize => 0xE4
  | rxCrcError => 0xE5
  | rxFail => 0xE6
  | rxNoResponse => 0xE7
  | txTimeout => 0xEA
  | rxTimeout => 0xEB
  | smallBuffer => 0xED
  | commFail => 0xF0
  | timeout => 0xF1
  | badOpcode => 0xF2
  | executionError => 0xF4
  | txFail => 0xF7
  | noDevices => 0xF9
  | other code => code

end DeviceError

end SecureKit

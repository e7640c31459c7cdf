/-!
# Fan Errors

The two parts of the fan control that can fail to answer.
-/

namespace SecureKit

/-- A failure of the fan control. -/
inductive FanError where
  /-- The temperature sensor did not answer. -/
  | sensor
  /-- The fan did not answer. -/
  | fan
  deriving DecidableEq

end SecureKit

import SecureKit.Cloud.Identity
import SecureKit.Fan.Error

/-!
# Cloud Errors

Why a step of the cloud session failed.
-/

namespace SecureKit

/-- A failure of the cloud session. -/
inductive CloudError where
  /-- The network or the message session failed. -/
  | network
  /-- The identity cannot be used. -/
  | identity (error : IdentityError)
  /-- The token could not be signed. -/
  | token
  /-- A message did not fit into its buffer. -/
  | serialize
  /-- A message could not be read. -/
  | parse
  /-- The fan control failed. -/
  | fan (error : FanError)
  deriving DecidableEq

end SecureKit

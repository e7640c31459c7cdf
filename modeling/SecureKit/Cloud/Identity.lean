import SecureKit.Text.Bytes

/-!
# Cloud Identity

The identity under which the board connects to the cloud, and the texts derived from it. A derived
text longer than `identifierMax` bytes is refused, never cut (`bounded_eq_ok_iff`).
-/

namespace SecureKit

/-- A failure of the cloud identity. -/
inductive IdentityError where
  /-- A provisioning document could not be read. -/
  | parse
  /-- A derived text is too long. -/
  | tooLong
  deriving DecidableEq

/-- The identity of the board in the cloud. -/
structure Identity where
  /-- The host of the message bridge. -/
  host : String
  /-- Its port. -/
  port : UInt16
  /-- The project, which tokens are issued for. -/
  projectId : String
  /-- The region of the device registry. -/
  regionId : String
  /-- The device registry. -/
  registryId : String
  /-- The device in the registry. -/
  deviceId : String
  deriving DecidableEq

namespace Identity

/-- The host an identity has unless it names another. -/
def defaultHost : String := "mqtt.googleapis.com"

/-- The port an identity has unless it names another. -/
def defaultPort : UInt16 := 443

/-- The largest size of a derived text. -/
def identifierMax : Nat := 256

/-- `text`, if it is not too long. -/
def bounded (text : String) : Except IdentityError String :=
  if text.utf8ByteSize ≤ identifierMax then .ok text else .error .tooLong

/-- The text of the client name. -/
def clientName (identity : Identity) : String :=
  "projects/" ++ identity.projectId ++ "/locations/" ++ identity.regionId ++ "/registries/" ++
    identity.registryId ++ "/devices/" ++ identity.deviceId

/-- The text of a topic that ends in `leaf`. -/
def topicName (identity : Identity) (leaf : String) : String :=
  "/devices/" ++ identity.deviceId ++ "/" ++ leaf

/-- The client name. -/
def clientId (identity : Identity) : Except IdentityError String := bounded identity.clientName

/-- The topic on which telemetry is published. -/
def publishTopic (identity : Identity) : Except IdentityError String :=
  bounded (identity.topicName "events")

/-- The topic on which configuration messages arrive. -/
def subscribeTopic (identity : Identity) : Except IdentityError String :=
  bounded (identity.topicName "config")

/-- The user name, which the bridge does not look at. -/
def username : String := "unused"

/-- A derived text is given in full or not at all. -/
theorem bounded_eq_ok_iff {text result : String} :
    bounded text = .ok result ↔ text.utf8ByteSize ≤ identifierMax ∧ text = result := by
  unfold bounded
  split
  · rename_i h
    simp [h]
  · rename_i h
    simp [h]

/-- A derived text is refused for its length only. -/
theorem bounded_eq_error_iff {text : String} {error : IdentityError} :
    bounded text = .error error ↔ identifierMax < text.utf8ByteSize ∧ error = .tooLong := by
  unfold bounded
  split
  · rename_i h
    simp
    omega
  · rename_i h
    have h' : identifierMax < text.utf8ByteSize := by omega
    simp [h', eq_comm]

end Identity

end SecureKit

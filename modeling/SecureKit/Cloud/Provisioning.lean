import SecureKit.Cloud.Identity
import SecureKit.Json.Reader

/-!
# Provisioning Documents

A board learns its cloud identity from a JSON object. Project, region, registry and device must be
given, host and port have defaults, unknown members are passed over, and a member that is given
twice makes the document unusable.
-/

namespace SecureKit.Identity

open Json Reader

/-- The members of a provisioning document read so far. -/
structure Draft where
  host : Option String := none
  port : Option UInt16 := none
  projectId : Option String := none
  regionId : Option String := none
  registryId : Option String := none
  deviceId : Option String := none

namespace Draft

/-- Read the value of the member called `name` into a draft. -/
def readMember (depth : Nat) (name : String) (draft : Draft) : Reader Draft :=
  match name with
  | "host" => return { draft with host := ← once draft.host text }
  | "port" => return { draft with port := ← once draft.port (UInt16.ofNat <$> natural UInt16.size) }
  | "project_id" => return { draft with projectId := ← once draft.projectId text }
  | "region_id" => return { draft with regionId := ← once draft.regionId text }
  | "registry_id" => return { draft with registryId := ← once draft.registryId text }
  | "device_id" => return { draft with deviceId := ← once draft.deviceId text }
  | _ => do
    skip depth
    return draft

/-- The identity, if nothing is missing. -/
def complete? (draft : Draft) : Option Identity := do
  return {
    host := draft.host.getD defaultHost
    port := draft.port.getD defaultPort
    projectId := ← draft.projectId
    regionId := ← draft.regionId
    registryId := ← draft.registryId
    deviceId := ← draft.deviceId }

end Draft

/-- The identity in a provisioning document. -/
def ofJson (json : Bytes) : Except IdentityError Identity :=
  match (document (fun fuel => object (Draft.readMember fuel) fuel {}) json).bind
      Draft.complete? with
  | some identity => .ok identity
  | none => .error .parse

end SecureKit.Identity

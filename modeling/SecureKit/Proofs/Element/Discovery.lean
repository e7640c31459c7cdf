import SecureKit.Element.Discovery
import SecureKit.Proofs.Peripheral.Program

/-!
# The Device Table

A discovery leaves nothing in the device table but a device on the I2C bus that is classified by its
revision.

* `discover_table` — the table after a discovery, whatever the bus answers.
-/

namespace SecureKit.Element

open Program

/-- The entry for a device that has answered. -/
def foundDevice (address : UInt8) (revision : Revision) : DeviceInfo where
  busType := .i2c
  deviceType := .ofRevision revision
  address := address
  deviceIndex := 0
  revision := revision

/-- After a discovery the table is empty, or holds one device that has answered on the I2C bus. -/
theorem discover_table :
    discover.Ensures fun _ result =>
      result.1 = [] ∨ ∃ address revision, result.1 = [foundDevice address revision] := by
  -- where the device was found does not matter, only what the last probe has read
  rw [discover, ensures_bind]
  refine ensures_of_forall fun _ first => ?_
  rw [ensures_bind]
  refine ensures_of_forall fun _ outcome => ?_
  cases outcome with
  | error error => exact .inl rfl
  | ok revision => exact fun address => .inr ⟨address, revision, rfl⟩

end SecureKit.Element

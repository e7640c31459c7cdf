/-!
# Scripted Faults

A simulated peripheral can be told to fail. Its script lists entries for operations; every operation
uses up the first entry for it, which may say that it does not fail.
-/

namespace SecureKit

/-- The scripted faults of the operations `ο`. -/
abbrev Faults (ο ε : Type) := List (ο × Option ε)

namespace Faults

variable {ο ε : Type} [DecidableEq ο]

/-- The fault for the next use of an operation, and the script that remains. -/
def take (operation : ο) : Faults ο ε → Option ε × Faults ο ε
  | [] => (none, [])
  | (entry, fault) :: rest =>
    if entry = operation then (fault, rest)
    else
      let (found, rest) := take operation rest
      (found, (entry, fault) :: rest)

/-- Without a script nothing fails. -/
@[simp]
theorem take_nil (operation : ο) : take operation ([] : Faults ο ε) = (none, []) := rfl

end Faults

end SecureKit

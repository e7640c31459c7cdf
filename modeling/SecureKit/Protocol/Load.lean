import SecureKit.Protocol.Frame

/-!
# Data Loads

A command carries its data as hex digits between parentheses. The closing parenthesis may be
missing; then the load reaches to the end of the command.
-/

namespace SecureKit.Load

/-- The part of a command up to the opening parenthesis and the part after it, if there is one. -/
def split? (command : Bytes) : Option (Bytes × Bytes) :=
  match command.dropWhile (· ≠ Frame.opening) with
  | [] => none
  | _ :: rest => some (command.takeWhile (· ≠ Frame.opening) ++ [Frame.opening], rest)

/-- The number of digits in front of the closing parenthesis. -/
def digitCount (load : Bytes) : Nat := (load.takeWhile (· ≠ Frame.closing)).length

/-- Decode the load of a command within the command. Returns the load, if there is one, and the
command with the bytes of the load in place of their digits. A command without a load is left as it
is. -/
def decodeInPlace (command : Bytes) : Option Bytes × Bytes :=
  match split? command with
  | none => (none, command)
  | some (front, load) =>
    -- without a closing parenthesis all that follows is taken for digits
    let (count, load) := Hex.decodeInPlace load (digitCount load)
    (some (load.take count), front ++ load)

/-- The load of a command, if it has one. -/
def ofCommand? (command : Bytes) : Option Bytes := (decodeInPlace command).1

/-- A command splits unless it has no opening parenthesis. -/
theorem split?_eq_none_iff (command : Bytes) : split? command = none ↔ Frame.opening ∉ command := by
  unfold split?
  induction command with
  | nil => simp
  | cons c rest ih =>
    by_cases hc : c = Frame.opening
    · simp [hc]
    · have hc' : Frame.opening ≠ c := fun h => hc h.symm
      simp only [List.dropWhile_cons, hc, ne_eq, not_false_eq_true, decide_true, if_true,
        List.mem_cons, hc', false_or]
      rw [← ih]
      cases rest.dropWhile (· ≠ Frame.opening) <;> simp

/-- Commands without an opening parenthesis, and no others, have no load. -/
theorem ofCommand?_eq_none_iff (command : Bytes) :
    ofCommand? command = none ↔ Frame.opening ∉ command := by
  rw [← split?_eq_none_iff, ofCommand?, decodeInPlace]
  cases split? command <;> simp

end SecureKit.Load

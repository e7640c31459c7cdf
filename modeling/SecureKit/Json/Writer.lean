import SecureKit.Text.Decimal
import SecureKit.Text.Hex

/-!
# JSON Writer

JSON text without blanks. Quotes, backslashes and control characters of a string are escaped; all
other bytes stand for themselves. A text is written into a buffer in full or not at all
(`fitting?_eq_some_iff`).
-/

namespace SecureKit.Json

/-- The byte `c` of a string as it is written. -/
def escaped (c : UInt8) : Bytes :=
  let backslash := Bytes.ascii '\\'
  if c = backslash ∨ c = Bytes.ascii '\"' then [backslash, c]
  else if c = 0x08 then [backslash, Bytes.ascii 'b']
  else if c = 0x09 then [backslash, Bytes.ascii 't']
  else if c = 0x0A then [backslash, Bytes.ascii 'n']
  else if c = 0x0C then [backslash, Bytes.ascii 'f']
  else if c = 0x0D then [backslash, Bytes.ascii 'r']
  else if c < 0x20 then
    [backslash, Bytes.ascii 'u', Bytes.ascii '0', Bytes.ascii '0', Hex.highDigit c, Hex.lowDigit c]
  else [c]

/-- A string. -/
def quoted (text : String) : Bytes :=
  Bytes.ascii '\"' :: (Bytes.ofText text).flatMap escaped ++ [Bytes.ascii '\"']

/-- A member of an object, from its name and the text of its value. -/
def member (name : String) (value : Bytes) : Bytes := quoted name ++ Bytes.ascii ':' :: value

/-- An object, from its members. -/
def object (members : List Bytes) : Bytes :=
  Bytes.ascii '\x7b' :: List.intercalate [Bytes.ascii ','] members ++ [Bytes.ascii '\x7d']

/-- An array, from its elements. -/
def array (elements : List Bytes) : Bytes :=
  Bytes.ascii '[' :: List.intercalate [Bytes.ascii ','] elements ++ [Bytes.ascii ']']

/-- `text`, if it fits into a buffer of `size` bytes. -/
def fitting? (size : Nat) (text : Bytes) : Option Bytes :=
  if text.length ≤ size then some text else none

/-- What fits is given unchanged. -/
theorem fitting?_eq_some_iff {size : Nat} {text result : Bytes} :
    fitting? size text = some result ↔ text.length ≤ size ∧ text = result := by
  simp [fitting?]

end SecureKit.Json

import SecureKit.Text.Bytes

/-!
# Hex Text

Every byte is written as two upper-case hex digits, high digit first. Reading is lenient: a
character that is no hex digit counts as `0`, and a digit string of odd length holds no bytes.

* `nibble_digit` — a digit reads back as the four bits it shows.
* `decode_encode` — hex text reads back as the bytes it shows.
* `length_encode` — two digits for every byte.
-/

namespace SecureKit.Hex

/-- Digits that show one byte. -/
def digitsPerByte : Nat := 2

/-- The upper-case hex digit for the low four bits of `value`. -/
def digit (value : UInt8) : UInt8 :=
  let low := value &&& 0x0F
  if low ≤ 9 then low + Bytes.ascii '0' else low - 10 + Bytes.ascii 'A'

/-- The value of a hex digit of either case; `0` for every other character. -/
def nibble (c : UInt8) : UInt8 :=
  if Bytes.ascii '0' ≤ c ∧ c ≤ Bytes.ascii '9' then c - Bytes.ascii '0'
  else if Bytes.ascii 'A' ≤ c ∧ c ≤ Bytes.ascii 'F' then c - Bytes.ascii 'A' + 10
  else if Bytes.ascii 'a' ≤ c ∧ c ≤ Bytes.ascii 'f' then c - Bytes.ascii 'a' + 10
  else 0

/-- The digit for the high four bits of `byte`. -/
def highDigit (byte : UInt8) : UInt8 := digit (byte >>> 4)

/-- The digit for the low four bits of `byte`. -/
def lowDigit (byte : UInt8) : UInt8 := digit byte

/-- The byte shown by a high and a low digit. -/
def byteOf (high low : UInt8) : UInt8 := (nibble high <<< 4) ||| nibble low

/-- The hex text of `bytes`. -/
def encode : Bytes → Bytes
  | [] => []
  | byte :: rest => highDigit byte :: lowDigit byte :: encode rest

/-- The bytes shown by the digit pairs of `digits`; a last digit without a partner is left out. -/
def decodePairs : Bytes → Bytes
  | high :: low :: rest => byteOf high low :: decodePairs rest
  | _ => []

/-- The bytes shown by `digits`, none if there is an odd number of them. -/
def decode (digits : Bytes) : Bytes :=
  if digits.length % digitsPerByte = 0 then decodePairs digits else []

/-- Store the byte shown by the digits at `2 * i` and `2 * i + 1` at place `i`. -/
def packAt (buffer : Bytes) (i : Nat) : Bytes :=
  buffer.set i (byteOf (buffer.getD (2 * i) 0) (buffer.getD (2 * i + 1) 0))

/-- Decode the first `length` digits of `buffer` within the buffer, first pair first, so that no
digit is overwritten before it was read. Returns the number of bytes stored and the buffer. The
length is cut to the buffer; an odd one, or one below a pair, changes nothing. -/
def decodeInPlace (buffer : Bytes) (length : Nat) : Nat × Bytes :=
  let length := min length buffer.length
  if length < digitsPerByte ∨ length % digitsPerByte ≠ 0 then (0, buffer)
  else
    let count := length / digitsPerByte
    (count, (List.range count).foldl packAt buffer)

/-- A digit reads back as the four bits it shows. -/
theorem nibble_digit (value : UInt8) : nibble (digit value) = value &&& 0x0F := by
  revert value
  exact Bytes.forall_of_fin (by decide +kernel)

/-- The two digits of a byte read back as the byte. -/
@[simp]
theorem byteOf_digits (byte : UInt8) : byteOf (highDigit byte) (lowDigit byte) = byte := by
  revert byte
  exact Bytes.forall_of_fin (by decide +kernel)

@[simp]
theorem length_encode (bytes : Bytes) : (encode bytes).length = 2 * bytes.length := by
  induction bytes with
  | nil => rfl
  | cons byte rest ih => simp [encode, ih]; omega

/-- Pair by pair, hex text reads back as the bytes it shows. -/
@[simp]
theorem decodePairs_encode (bytes : Bytes) : decodePairs (encode bytes) = bytes := by
  induction bytes with
  | nil => rfl
  | cons byte rest ih => simp [encode, decodePairs, ih]

/-- Hex text reads back as the bytes it shows. -/
@[simp]
theorem decode_encode (bytes : Bytes) : decode (encode bytes) = bytes := by
  simp [decode, digitsPerByte]

end SecureKit.Hex

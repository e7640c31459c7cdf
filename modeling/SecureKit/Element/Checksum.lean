import SecureKit.Text.Bytes

/-!
# Packet Checksum

Packets of the secure element end in a CRC-16 with polynomial `0x8005` and seed zero. The bits of a
byte enter least significant bit first, while the remainder is shifted towards its most significant
bit; it is appended low byte first.

* `feed_append` — a byte string is fed piece by piece.
* `step_xor` — feeding is linear over exclusive or.
-/

namespace SecureKit.Checksum

/-- Bytes of a checksum. -/
def size : Nat := 2

/-- The polynomial without its leading term. -/
def polynomial : BitVec 16 := 0x8005#16

/-- Feed one bit into a remainder. -/
def step (remainder : BitVec 16) (bit : Bool) : BitVec 16 :=
  (remainder <<< 1) ^^^ (if remainder.msb ^^ bit then polynomial else 0#16)

/-- The bits of a byte in the order in which they are fed. -/
def bits (byte : UInt8) : List Bool :=
  (List.range 8).map fun i => byte.toBitVec.getLsbD i

/-- Feed a byte string into a remainder. -/
def feed (remainder : BitVec 16) (data : Bytes) : BitVec 16 :=
  (data.flatMap bits).foldl step remainder

/-- The checksum of `data` as it stands on the wire. -/
def of (data : Bytes) : Bytes :=
  let remainder := feed 0#16 data
  [(remainder.setWidth 8).toNat.toUInt8, (remainder >>> 8).toNat.toUInt8]

/-- Whether the checksum at the end of a counted packet is right. Bytes after the counted ones are
not looked at; a count that leaves no room for a checksum, or is above the length of `packet`,
fails. -/
def holds (packet : Bytes) : Bool :=
  match packet with
  | [] => false
  | first :: _ =>
    let count := first.toNat
    1 + size ≤ count && count ≤ packet.length &&
      of (packet.take (count - size)) == (packet.take count).drop (count - size)

/-- A byte string is fed piece by piece. -/
@[simp]
theorem feed_append (remainder : BitVec 16) (first second : Bytes) :
    feed remainder (first ++ second) = feed (feed remainder first) second := by
  simp [feed]

@[simp]
theorem length_of (data : Bytes) : (of data).length = size := rfl

/-- Feeding a bit is linear over exclusive or. -/
theorem step_xor (first second : BitVec 16) (bit bit' : Bool) :
    step (first ^^^ second) (bit ^^ bit') = step first bit ^^^ step second bit' := by
  have h (p q : Bool) : (if (p ^^ q) then polynomial else 0#16) =
      (if p then polynomial else 0#16) ^^^ (if q then polynomial else 0#16) := by
    cases p <;> cases q <;> decide
  have hmsb : ((first ^^^ second).msb ^^ (bit ^^ bit')) =
      ((first.msb ^^ bit) ^^ (second.msb ^^ bit')) := by
    rw [BitVec.msb_xor]
    cases first.msb <;> cases second.msb <;> cases bit <;> cases bit' <;> rfl
  rw [step, step, step, hmsb, h, BitVec.shiftLeft_xor_distrib]
  ac_rfl

end SecureKit.Checksum

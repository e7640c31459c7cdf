import SecureKit.Element.Discovery

/-!
# Damaged Packets

The checksum is linear: what damage does to it depends on the flipped bits only, not on the packet.
Damage therefore goes unnoticed exactly if the flipped bits are the bits of a string followed by
those of its own checksum (`undetected`), which gives two kinds of damage that never do:

* an odd number of flipped bits, since a string and its checksum together have an even number of
  bits set (`odd_foldl_step`);
* a burst within `width` consecutive bits ahead of the checksum, since a remainder that has been
  cleared was cleared by its own bits (`getMsbD_of_foldl_step`).

`damage_detected` puts both together, with the packets that pass undamaged.
-/

namespace SecureKit.Checksum

/-- The number of bits of a remainder. -/
def width : Nat := 16

/-- The bits of a remainder, in the order in which they stand on the wire. -/
def remainderBits (remainder : BitVec 16) : List Bool := (List.range width).map remainder.getLsbD

/-- Whether an odd number of bits is set. -/
def odd (bits : List Bool) : Bool := bits.foldr (· ^^ ·) false

/-- The bits in which two strings differ, place by place. -/
def differences (first second : List Bool) : List Bool := List.zipWith (· ^^ ·) first second

/-- The bits in which two byte strings differ, in the order in which they are fed. -/
def flips (first second : Bytes) : List Bool :=
  differences (first.flatMap bits) (second.flatMap bits)

@[simp]
theorem length_differences (first second : List Bool) :
    (differences first second).length = min first.length second.length := List.length_zipWith

@[simp]
theorem length_flatMap_bits (data : Bytes) : (data.flatMap bits).length = 8 * data.length := by
  induction data with
  | nil => rfl
  | cons byte rest ih =>
    rw [List.flatMap_cons, List.length_append, ih, List.length_cons, Nat.mul_succ, Nat.add_comm]
    rfl

@[simp]
theorem odd_nil : odd [] = false := rfl

@[simp]
theorem odd_cons (bit : Bool) (rest : List Bool) : odd (bit :: rest) = (bit ^^ odd rest) := rfl

/-- Two strings together are odd if exactly one of them is. -/
@[simp]
theorem odd_append (first second : List Bool) :
    odd (first ++ second) = (odd first ^^ odd second) := by
  induction first with
  | nil => simp
  | cons bit rest ih => simp [ih]

/-- A string is odd if the number of its set bits is. -/
theorem odd_eq_true_iff (bits : List Bool) : odd bits = true ↔ bits.count true % 2 = 1 := by
  induction bits with
  | nil => simp
  | cons bit rest ih =>
    cases bit with
    | false => simpa using ih
    | true =>
      rw [odd_cons, Bool.true_xor, Bool.not_eq_true', ← Bool.not_eq_true, ih, List.count_cons_self]
      omega

/-- Parity is linear over exclusive or. -/
theorem odd_differences {first second : List Bool} (h : first.length = second.length) :
    odd (differences first second) = (odd first ^^ odd second) := by
  induction first generalizing second with
  | nil => simp [differences, List.length_eq_zero_iff.1 h.symm]
  | cons bit rest ih =>
    obtain _ | ⟨bit', rest'⟩ := second
    · cases h
    · have hrest : odd (List.zipWith (· ^^ ·) rest rest') = (odd rest ^^ odd rest') :=
        ih (Nat.succ.inj h)
      rw [differences, List.zipWith_cons_cons, odd_cons, hrest, odd_cons, odd_cons, Bool.xor_assoc,
        Bool.xor_assoc, Bool.xor_left_comm bit']

/-- The bits of two remainders differ where the remainders do. -/
theorem remainderBits_xor (first second : BitVec 16) :
    remainderBits (first ^^^ second) =
      differences (remainderBits first) (remainderBits second) := by
  simp [remainderBits, differences, List.zipWith_map, List.zipWith_self]

/-- The bits of a checksum are those of the remainder. -/
theorem flatMap_bits_of (data : Bytes) :
    (of data).flatMap bits = remainderBits (feed 0#16 data) := by
  rw [of]
  generalize feed 0#16 data = remainder
  have hlow : bits (remainder.setWidth 8).toNat.toUInt8 =
      (List.range 8).map remainder.getLsbD := by
    refine List.map_congr_left fun i hi => ?_
    show (BitVec.ofNat 8 (remainder.setWidth 8).toNat).getLsbD i = _
    rw [BitVec.ofNat_toNat, BitVec.getLsbD_setWidth, BitVec.getLsbD_setWidth]
    simp [List.mem_range.1 hi]
  have hhigh : bits (remainder >>> 8).toNat.toUInt8 =
      (List.range 8).map fun i => remainder.getLsbD (8 + i) := by
    refine List.map_congr_left fun i hi => ?_
    show (BitVec.ofNat 8 (remainder >>> 8).toNat).getLsbD i = _
    rw [BitVec.ofNat_toNat, BitVec.getLsbD_setWidth, BitVec.getLsbD_ushiftRight]
    simp [List.mem_range.1 hi]
  simp only [List.flatMap_cons, List.flatMap_nil, List.append_nil]
  rw [hlow, hhigh]
  rfl

/-- Feeding is linear over exclusive or. -/
theorem foldl_step_differences (remainder remainder' : BitVec 16) {bits bits' : List Bool}
    (h : bits.length = bits'.length) :
    (differences bits bits').foldl step (remainder ^^^ remainder') =
      bits.foldl step remainder ^^^ bits'.foldl step remainder' := by
  induction bits generalizing remainder remainder' bits' with
  | nil => simp [differences, List.length_eq_zero_iff.1 h.symm]
  | cons bit rest ih =>
    obtain _ | ⟨bit', rest'⟩ := bits'
    · cases h
    · rw [List.foldl_cons, List.foldl_cons, ← ih _ _ (Nat.succ.inj h), ← step_xor]
      rfl

/-- Every bit that is set changes the parity of the remainder. -/
theorem odd_step (remainder : BitVec 16) (bit : Bool) :
    odd (remainderBits (step remainder bit)) = (odd (remainderBits remainder) ^^ bit) := by
  -- what is shifted out is the most significant bit, which decides about the polynomial
  have hshift : remainderBits (remainder <<< 1) =
      false :: (List.range 15).map remainder.getLsbD := by
    rw [remainderBits, width, List.range_succ_eq_map, List.map_cons, List.map_map]
    congr 1
    · simp
    · refine List.map_congr_left fun i hi => ?_
      have hlt : i + 1 < 16 := Nat.succ_lt_succ (List.mem_range.1 hi)
      simp [hlt, Nat.lt_of_succ_lt hlt]
  have hbits : remainderBits remainder =
      (List.range 15).map remainder.getLsbD ++ [remainder.msb] := by
    rw [remainderBits, width, List.range_succ, List.map_append]
    rfl
  have hpolynomial : ∀ taken : Bool,
      odd (remainderBits (if taken then polynomial else 0#16)) = taken := by
    decide
  rw [step, remainderBits_xor, odd_differences (by simp [remainderBits]), hpolynomial, hshift,
    hbits]
  simp

/-- The parity of the remainder is that of the bits that were fed. -/
theorem odd_foldl_step (remainder : BitVec 16) (bits : List Bool) :
    odd (remainderBits (bits.foldl step remainder)) =
      (odd (remainderBits remainder) ^^ odd bits) := by
  induction bits generalizing remainder with
  | nil => simp
  | cons bit rest ih => rw [List.foldl_cons, ih, odd_step, odd_cons, Bool.xor_assoc]

/-- The bit that comes in at the least significant end. -/
theorem getMsbD_step_last (remainder : BitVec 16) (bit : Bool) :
    (step remainder bit).getMsbD 15 = (remainder.msb ^^ bit) := by
  have hpolynomial : ∀ taken : Bool,
      (if taken then polynomial else 0#16).getMsbD 15 = taken := by
    decide
  rw [step, BitVec.getMsbD_xor, hpolynomial]
  simp

/-- If the remainder is cleared, and nothing was set after the first `width` bits that were fed, the
bits that were fed are those of the remainder, most significant bit first. -/
theorem getMsbD_of_foldl_step {remainder : BitVec 16} {bits : List Bool}
    (hcleared : bits.foldl step remainder = 0#16)
    (hfirst : ∀ i, bits[i]? = some true → i < width) (i : Nat) (hi : i < width) :
    remainder.getMsbD i = true ↔ bits[i]? = some true := by
  -- backwards over the bits: the last bit of the remainder after a step tells which bit was fed
  induction bits generalizing remainder i with
  | nil =>
    rw [List.foldl_nil] at hcleared
    simp [hcleared]
  | cons bit rest ih =>
    have hrest := ih hcleared fun i hset => Nat.lt_of_succ_lt (hfirst (i + 1) hset)
    have hlast : (step remainder bit).getMsbD 15 = false := by
      rw [Bool.eq_false_iff, ne_eq, hrest 15 (by decide)]
      exact fun hset => Nat.lt_irrefl width (hfirst 16 hset)
    have hmsb : (remainder.msb ^^ bit) = false := by
      rw [← getMsbD_step_last, hlast]
    have hstep : step remainder bit = remainder <<< 1 := by
      simp [step, hmsb]
    cases i with
    | zero =>
      have hbit : remainder.getMsbD 0 = bit := bne_eq_false_iff_eq.1 hmsb
      simp [hbit]
    | succ i => rw [List.getElem?_cons_succ, ← hrest i (Nat.lt_of_succ_lt hi), hstep,
        BitVec.getMsbD_shiftLeft]

/-- Bits that are set, but only within a burst, do not leave an empty remainder empty. -/
theorem notMem_of_foldl_step {bits : List Bool} (hcleared : bits.foldl step 0#16 = 0#16)
    {start : Nat} (hburst : ∀ i, bits[i]? = some true → start ≤ i ∧ i < start + width) :
    true ∉ bits := by
  -- what comes ahead of the burst keeps the remainder empty
  induction start generalizing bits with
  | zero =>
    have hfirst : ∀ i, bits[i]? = some true → i < width := by
      intro i hset
      simpa using (hburst i hset).2
    intro hmem
    obtain ⟨i, hset⟩ := List.mem_iff_getElem?.1 hmem
    have hbit := (getMsbD_of_foldl_step hcleared hfirst i (hfirst i hset)).2 hset
    simp at hbit
  | succ start ih =>
    cases bits with
    | nil => exact List.not_mem_nil
    | cons bit rest =>
      have hbit : bit = false := by
        rw [Bool.eq_false_iff]
        rintro rfl
        exact absurd (hburst 0 rfl).1 (Nat.not_succ_le_zero start)
      subst hbit
      have hrest : true ∉ rest := by
        refine ih hcleared fun i hset => ?_
        have hshifted := hburst (i + 1) hset
        omega
      simpa using hrest

open Element (withChecksum)

/-- The packets that pass are those that start with a counted byte string and its checksum. -/
theorem holds_iff (packet : Bytes) :
    holds packet = true ↔
      ∃ (count : UInt8) (data tail : Bytes), packet = withChecksum (count :: data) ++ tail ∧
        count.toNat = data.length + 1 + size := by
  constructor
  · intro h
    obtain _ | ⟨count, rest⟩ := packet
    · cases h
    simp only [holds, Bool.and_eq_true, decide_eq_true_eq, beq_iff_eq, List.length_cons] at h
    obtain ⟨⟨hleast, hmost⟩, hchecksum⟩ := h
    obtain ⟨length, hcount⟩ : ∃ length, count.toNat = length + 1 + size :=
      ⟨count.toNat - (1 + size), by omega⟩
    -- the bytes that are compared are the first ones of those that are counted
    rw [hcount, Nat.add_sub_cancel] at hchecksum
    refine ⟨count, rest.take length, (count :: rest).drop count.toNat, ?_, ?_⟩
    · have hcut : (count :: rest).take (length + 1) = ((count :: rest).take count.toNat).take
          (length + 1) := by
        rw [List.take_take, hcount, Nat.min_eq_left (Nat.le_add_right _ _)]
      rw [withChecksum, ← List.take_succ_cons, hchecksum, hcut, hcount, List.take_append_drop,
        List.take_append_drop]
    · rw [List.length_take_of_le (by omega), hcount]
  · rintro ⟨count, data, tail, rfl, hcount⟩
    have hbody : (withChecksum (count :: data) ++ tail).take (data.length + 1) = count :: data := by
      rw [withChecksum, List.append_assoc, List.take_left']
      rfl
    have hwhole : (withChecksum (count :: data) ++ tail).take count.toNat =
        withChecksum (count :: data) := by
      rw [List.take_left']
      rw [withChecksum, List.length_append, length_of, List.length_cons, hcount]
    have hchecksum : (withChecksum (count :: data)).drop (data.length + 1) =
        of (count :: data) := by
      rw [withChecksum, List.drop_left']
      rfl
    show (_ && _ && _) = true
    rw [hwhole, hcount, Nat.add_sub_cancel, hbody, hchecksum]
    simp [withChecksum]
    omega

/-- What has changed in a packet without being noticed is a string of bits with its own
remainder. -/
theorem flips_withChecksum {body body' : Bytes} (h : body.length = body'.length) :
    flips (withChecksum body) (withChecksum body') =
      flips body body' ++ remainderBits ((flips body body').foldl step 0#16) := by
  have hbits : (body.flatMap bits).length = (body'.flatMap bits).length := by
    rw [length_flatMap_bits, length_flatMap_bits, h]
  have hfed := foldl_step_differences 0#16 0#16 hbits
  rw [BitVec.xor_self] at hfed
  rw [flips, withChecksum, withChecksum, List.flatMap_append, List.flatMap_append,
    flatMap_bits_of, flatMap_bits_of, flips, hfed, remainderBits_xor]
  exact List.zipWith_append hbits

/-- The same for the counted bytes of two packets that both pass. -/
theorem undetected {count : UInt8} {rest rest' : Bytes} (h : holds (count :: rest) = true)
    (h' : holds (count :: rest') = true) :
    ∃ errors : List Bool, errors.length = 8 * (count.toNat - size) ∧
      flips ((count :: rest).take count.toNat) ((count :: rest').take count.toNat) =
        errors ++ remainderBits (errors.foldl step 0#16) := by
  have hcounted : ∀ {rest : Bytes}, holds (count :: rest) = true → ∃ body : Bytes,
      body.length = count.toNat - size ∧
        (count :: rest).take count.toNat = withChecksum body := by
    intro rest h
    obtain ⟨count', data, tail, hpacket, hcount⟩ := (holds_iff _).1 h
    obtain rfl : count = count' := (List.cons.inj hpacket).1
    refine ⟨count :: data, by simp [hcount], ?_⟩
    rw [hpacket, List.take_left']
    simp [withChecksum, hcount]
    omega
  obtain ⟨body, hlength, hbody⟩ := hcounted h
  obtain ⟨body', hlength', hbody'⟩ := hcounted h'
  refine ⟨flips body body', ?_, ?_⟩
  · rw [flips, length_differences, length_flatMap_bits, length_flatMap_bits, hlength, hlength',
      Nat.min_self]
  · rw [hbody, hbody', flips_withChecksum (hlength.trans hlength'.symm)]

/-- Bits of which at least one is set, all of them within `width` consecutive ones and ahead of
place `bound`. -/
structure IsBurst (bound : Nat) (bits : List Bool) : Prop where
  /-- There is a bit that is set. -/
  mem : true ∈ bits
  /-- The bits that are set lie ahead of the bound. -/
  lt_bound : ∀ i, bits[i]? = some true → i < bound
  /-- The bits that are set are close together. -/
  close : ∃ start, ∀ i, bits[i]? = some true → start ≤ i ∧ i < start + width

/-- Bits that are clear but for a stretch of at most `width` ahead of the bound are a burst. -/
theorem isBurst_of_eq_append {bits stretch : List Bool} {before after bound : Nat}
    (h : bits = List.replicate before false ++ (stretch ++ List.replicate after false))
    (hmem : true ∈ stretch) (hwidth : stretch.length ≤ width)
    (hbound : before + stretch.length ≤ bound) : IsBurst bound bits := by
  -- a bit that is set is in the stretch
  have hplace : ∀ i, bits[i]? = some true → before ≤ i ∧ i < before + stretch.length := by
    intro i hset
    rw [h, List.getElem?_append, List.length_replicate] at hset
    split at hset
    · rw [List.getElem?_replicate] at hset
      split at hset <;> cases hset
    · next hbefore =>
      rw [List.getElem?_append] at hset
      split at hset
      · omega
      · rw [List.getElem?_replicate] at hset
        split at hset <;> cases hset
  refine ⟨?_, fun i hset => ?_, before, fun i hset => ?_⟩
  · rw [h]
    exact List.mem_append_right _ (List.mem_append_left _ hmem)
  · exact Nat.lt_of_lt_of_le (hplace i hset).2 hbound
  · exact ⟨(hplace i hset).1, Nat.lt_of_lt_of_le (hplace i hset).2 (by omega)⟩

/-- Bits that are followed by their own remainder are no burst ahead of it. -/
theorem not_isBurst (errors : List Bool) :
    ¬IsBurst errors.length (errors ++ remainderBits (errors.foldl step 0#16)) := by
  rintro ⟨hmem, hbound, start, hclose⟩
  -- the burst ends ahead of the remainder, so the remainder is empty
  have hcleared : errors.foldl step 0#16 = 0#16 := by
    refine BitVec.eq_of_getLsbD_eq fun i hi => ?_
    rw [BitVec.getLsbD_zero, Bool.eq_false_iff]
    intro hset
    have hplace := hbound (errors.length + i) (by simp [remainderBits, width, hset, hi])
    omega
  have hnone : true ∉ errors := by
    refine notMem_of_foldl_step hcleared fun i hset => hclose i ?_
    rw [List.getElem?_append_left (List.getElem?_eq_some_iff.1 hset).1, hset]
  rw [hcleared] at hmem
  exact (List.mem_append.1 hmem).elim hnone (by decide)

/-- A counted string with its checksum passes, whatever comes after it. A packet that passes no
longer does, with the same count, after damage to the counted bytes that flips an odd number of
bits, or that is a burst ahead of the checksum. -/
theorem damage_detected :
    (∀ data tail : Bytes, data.length ≤ 252 →
      holds (withChecksum ((data.length + 1 + size).toUInt8 :: data) ++ tail) = true) ∧
    ∀ (count : UInt8) (rest rest' : Bytes), holds (count :: rest) = true →
      let flipped := flips ((count :: rest).take count.toNat) ((count :: rest').take count.toNat)
      (flipped.count true % 2 = 1 → holds (count :: rest') = false) ∧
        (IsBurst (8 * (count.toNat - size)) flipped → holds (count :: rest') = false) := by
  constructor
  · intro data tail hlength
    refine (holds_iff _).2 ⟨_, data, tail, rfl, ?_⟩
    simp [size]
    omega
  · intro count rest rest' h flipped
    refine ⟨fun hodd => Bool.eq_false_iff.2 fun h' => ?_,
      fun hburst => Bool.eq_false_iff.2 fun h' => ?_⟩
    · obtain ⟨errors, -, hflipped⟩ := undetected h h'
      -- the remainder keeps the parity of what it is taken of, so that the two together are even
      have heven : odd flipped = false := by
        show odd (flips _ _) = false
        rw [hflipped, odd_append, odd_foldl_step]
        have hzero : odd (remainderBits 0#16) = false := by decide
        rw [hzero, Bool.false_xor, Bool.xor_self]
      rw [← odd_eq_true_iff, heven] at hodd
      exact Bool.false_ne_true hodd
    · obtain ⟨errors, hlength, hflipped⟩ := undetected h h'
      refine not_isBurst errors ?_
      rw [← hflipped, hlength]
      exact hburst

/-- A device that wakes up answers `11`. The answer passes with a byte after it, and is rejected
with one bit flipped, or with two bits next to each other. -/
theorem damage_detected_wake :
    holds (withChecksum [0x04, 0x11] ++ [0xFF]) = true ∧
      holds [0x04, 0x11, 0x33, 0x43] = true ∧
      (flips [0x04, 0x11, 0x33, 0x43] [0x04, 0x10, 0x33, 0x43]).count true % 2 = 1 ∧
      holds [0x04, 0x10, 0x33, 0x43] = false ∧
      IsBurst 16 (flips [0x04, 0x11, 0x33, 0x43] [0x04, 0x12, 0x33, 0x43]) ∧
      holds [0x04, 0x12, 0x33, 0x43] = false := by
  have hholds : holds [0x04, 0x11, 0x33, 0x43] = true := by decide
  have hodd : (flips [0x04, 0x11, 0x33, 0x43] [0x04, 0x10, 0x33, 0x43]).count true % 2 = 1 := by
    decide
  have hflips : flips [0x04, 0x11, 0x33, 0x43] [0x04, 0x12, 0x33, 0x43] =
      List.replicate 8 false ++ ([true, true] ++ List.replicate 22 false) := by decide
  have hburst : IsBurst 16 (flips [0x04, 0x11, 0x33, 0x43] [0x04, 0x12, 0x33, 0x43]) :=
    isBurst_of_eq_append hflips (by decide) (by decide) (by decide)
  refine ⟨damage_detected.1 [0x11] [0xFF] (by decide), hholds, hodd, ?_, hburst, ?_⟩
  · exact (damage_detected.2 0x04 [0x11, 0x33, 0x43] [0x10, 0x33, 0x43] hholds).1 hodd
  · exact (damage_detected.2 0x04 [0x11, 0x33, 0x43] [0x12, 0x33, 0x43] hholds).2 hburst

end SecureKit.Checksum

import SecureKit.Protocol.Request
import SecureKit.Text.Hex

/-!
# In-Place Hex Decoding

Decoding within a buffer gives the bytes that decoding a copy would give: when pair `i` is read,
only the places below `i` have been written, and both digits of the pair stand at `2 * i` or later.

* `decodeInPlace_eq` — the buffer afterwards is the decoded digits, then the old bytes after them.
* `decode_eq_of_sameLetters` — the case of the digits does not matter.
* `isText_encode` — hex text consists of pairs of upper-case digits.
-/

namespace SecureKit

/-- Two texts that differ in nothing but the case of ASCII letters. -/
def SameLetters (text text' : Bytes) : Prop := text.map lowerCase = text'.map lowerCase

instance (text text' : Bytes) : Decidable (SameLetters text text') :=
  inferInstanceAs (Decidable (text.map lowerCase = text'.map lowerCase))

/-- A text and its lower-case form differ in nothing but the case of letters. -/
theorem sameLetters_map_lowerCase (text : Bytes) : SameLetters (text.map lowerCase) text := by
  have hidem : ∀ c, lowerCase (lowerCase c) = lowerCase c :=
    Bytes.forall_of_fin (by decide +kernel)
  simp [SameLetters, hidem]

namespace Hex

/-- An upper-case hex digit. -/
def IsDigit (c : UInt8) : Prop :=
  (Bytes.ascii '0' ≤ c ∧ c ≤ Bytes.ascii '9') ∨ (Bytes.ascii 'A' ≤ c ∧ c ≤ Bytes.ascii 'F')

instance (c : UInt8) : Decidable (IsDigit c) :=
  inferInstanceAs (Decidable (_ ∨ _))

/-- A text of pairs of upper-case hex digits. -/
structure IsText (text : Bytes) : Prop where
  /-- The digits come in pairs. -/
  paired : text.length % digitsPerByte = 0
  /-- There is nothing but digits. -/
  isDigit : ∀ c ∈ text, IsDigit c

/-- Every four bits are shown by a hex digit. -/
theorem isDigit_digit (value : UInt8) : IsDigit (digit value) := by
  revert value
  exact Bytes.forall_of_fin (by decide +kernel)

/-- Hex text consists of pairs of digits. -/
theorem isText_encode (bytes : Bytes) : IsText (encode bytes) := by
  refine ⟨by simp [digitsPerByte], ?_⟩
  -- each byte adds its two digits in front
  induction bytes with
  | nil => simp [encode]
  | cons byte rest ih =>
    intro c hc
    rcases List.mem_cons.1 hc with rfl | hc
    · exact isDigit_digit _
    rcases List.mem_cons.1 hc with rfl | hc
    · exact isDigit_digit _
    · exact ih c hc

/-- The value of a digit does not depend on its case. -/
@[simp]
theorem nibble_lowerCase (c : UInt8) : nibble (lowerCase c) = nibble c := by
  revert c
  exact Bytes.forall_of_fin (by decide +kernel)

/-- Pairs of digits show the same bytes in lower case. -/
theorem decodePairs_map_lowerCase :
    ∀ digits : Bytes, decodePairs (digits.map lowerCase) = decodePairs digits
  | [] => rfl
  | [_] => rfl
  | high :: low :: rest => by
    simp [decodePairs, byteOf, decodePairs_map_lowerCase rest]

/-- Digits that differ in nothing but their case show the same bytes. -/
theorem decode_eq_of_sameLetters {digits digits' : Bytes} (h : SameLetters digits digits') :
    decode digits = decode digits' := by
  have hlength : digits.length = digits'.length := by
    simpa using congrArg List.length h
  have hpairs : decodePairs digits = decodePairs digits' := by
    rw [← decodePairs_map_lowerCase digits, h, decodePairs_map_lowerCase]
  rw [decode, decode, hlength, hpairs]

/-- A text of at least two digits starts with a pair. -/
theorem exists_pair (digits : Bytes) (h : 2 ≤ digits.length) :
    ∃ high low rest, digits = high :: low :: rest := by
  rcases digits with _ | ⟨high, _ | ⟨low, rest⟩⟩
  · exact absurd h (by decide)
  · exact absurd h (by simp)
  · exact ⟨high, low, rest, rfl⟩

/-- One more pair of digits shows one more byte. -/
theorem decodePairs_take_succ (digits : Bytes) (count : Nat)
    (h : 2 * (count + 1) ≤ digits.length) :
    decodePairs (digits.take (2 * (count + 1))) =
      decodePairs (digits.take (2 * count)) ++
        [byteOf (digits.getD (2 * count) 0) (digits.getD (2 * count + 1) 0)] := by
  -- both sides lose their first pair together, so the induction is on the pairs before the last
  induction count generalizing digits with
  | zero =>
    obtain ⟨high, low, rest, rfl⟩ := exists_pair digits (by omega)
    simp [decodePairs]
  | succ count ih =>
    obtain ⟨high, low, rest, rfl⟩ := exists_pair digits (by omega)
    have hrest : 2 * (count + 1) ≤ rest.length := by
      simp only [List.length_cons] at h
      omega
    have htake : ∀ n, (high :: low :: rest).take (2 * (n + 1)) =
        high :: low :: rest.take (2 * n) := by
      intro n
      rw [Nat.mul_add]
      rfl
    rw [htake, htake, decodePairs, decodePairs, ih rest hrest]
    simp [Nat.mul_add]

/-- Two digits show one byte. -/
@[simp]
theorem length_decodePairs :
    ∀ digits : Bytes, (decodePairs digits).length = digits.length / 2
  | [] => rfl
  | [_] => by simp [decodePairs]
  | high :: low :: rest => by
    rw [decodePairs, List.length_cons, length_decodePairs rest, List.length_cons, List.length_cons]
    omega

/-- After `count` pairs the buffer holds their bytes, then its old content. -/
theorem foldl_packAt (buffer : Bytes) (count : Nat) (h : 2 * count ≤ buffer.length) :
    (List.range count).foldl packAt buffer =
      decodePairs (buffer.take (2 * count)) ++ buffer.drop count := by
  induction count with
  | zero => simp [decodePairs]
  | succ count ih =>
    have hlength : (decodePairs (buffer.take (2 * count))).length = count := by
      simp
      omega
    -- the pair to be read is still the old one: it lies behind all that was written
    have hread : ∀ i, count ≤ i →
        (decodePairs (buffer.take (2 * count)) ++ buffer.drop count).getD i 0 =
          buffer.getD i 0 := by
      intro i hi
      rw [List.getD_eq_getElem?_getD, List.getElem?_append_right (by omega), hlength,
        List.getElem?_drop, Nat.add_sub_cancel' hi, List.getD_eq_getElem?_getD]
    rw [List.range_succ, List.foldl_append, ih (by omega), List.foldl_cons, List.foldl_nil, packAt,
      hread _ (by omega), hread _ (by omega), decodePairs_take_succ buffer count h,
      List.set_append_right _ _ (by omega), hlength, Nat.sub_self,
      List.drop_eq_getElem_cons (show count < buffer.length by omega), List.set_cons_zero,
      List.append_assoc, List.singleton_append]

/-- Decoding within a buffer stores the bytes that the digits show, and keeps what comes after
them. -/
theorem decodeInPlace_eq (buffer : Bytes) (length : Nat) :
    decodeInPlace buffer length =
      let bytes := decode (buffer.take length)
      (bytes.length, bytes ++ buffer.drop bytes.length) := by
  have hmin : (buffer.take length).length = min length buffer.length := List.length_take
  rw [decodeInPlace, decode, hmin]
  dsimp only
  generalize hn : min length buffer.length = n
  by_cases hodd : n % digitsPerByte = 0
  · by_cases hshort : n < digitsPerByte
    · -- an even number below a pair is zero, and no digits show no bytes
      have hzero : n = 0 := by simp only [digitsPerByte] at hodd hshort; omega
      have hnil : buffer.take length = [] := List.length_eq_zero_iff.1 (by omega)
      simp [hzero, hnil, digitsPerByte, decodePairs]
    · -- the digits to be read are whole pairs that the buffer holds
      have htake : buffer.take length = buffer.take (2 * (n / digitsPerByte)) := by
        simp only [digitsPerByte] at hodd ⊢
        rw [show 2 * (n / 2) = n by omega, ← hn, ← List.take_eq_take_min]
      have hle : 2 * (n / digitsPerByte) ≤ buffer.length := by
        simp only [digitsPerByte]
        omega
      have hcount : (decodePairs (buffer.take (2 * (n / digitsPerByte)))).length =
          n / digitsPerByte := by
        rw [length_decodePairs, List.length_take]
        omega
      rw [if_neg (by simp [hodd, hshort]), if_pos hodd, foldl_packAt buffer _ hle, htake, hcount]
  · -- an odd number of digits shows nothing, and nothing is changed
    simp [hodd]

end Hex

end SecureKit

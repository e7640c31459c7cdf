import Mathlib.Data.List.GetD
import SecureKit.Proofs.Protocol.Grammar

/-!
# Conversion Within a Buffer

Framing and decoding write into the buffer that they read. Both give what they would give for a copy
of the old bytes, and keep the rest of the buffer.

* `Hex.text`, `Frame.text` — hex text and frames, by a table of the digits.
* `Hex.Decoded` — what decoding leaves at each place of a buffer.
* `Frame.framing_undone` — a frame is the text of the old bytes, and its load is their payload.
* `Load.decoding_confined` — decoding a load changes nothing but the bytes of the load.
-/

namespace SecureKit

namespace Hex

/-- The upper-case hex digits in the order of their values. -/
def capitals : Bytes := Bytes.ofText "0123456789ABCDEF"

/-- The digits of each byte, that of the sixteens in front of that of the ones. -/
def text (bytes : Bytes) : Bytes :=
  bytes.flatMap fun byte =>
    [capitals.getD (byte.toNat / 16) 0, capitals.getD (byte.toNat % 16) 0]

/-- The first digit of a byte shows its sixteens. -/
theorem highDigit_eq (byte : UInt8) : highDigit byte = capitals.getD (byte.toNat / 16) 0 := by
  revert byte
  exact Bytes.forall_of_fin (by decide +kernel)

/-- The second digit of a byte shows its ones. -/
theorem lowDigit_eq (byte : UInt8) : lowDigit byte = capitals.getD (byte.toNat % 16) 0 := by
  revert byte
  exact Bytes.forall_of_fin (by decide +kernel)

/-- Encoding gives the text by the table of digits. -/
theorem encode_eq_text (bytes : Bytes) : encode bytes = text bytes := by
  induction bytes with
  | nil => rfl
  | cons byte rest ih =>
    rw [encode, ih, highDigit_eq, lowDigit_eq]
    rfl

/-- What decoding the first `count` digits of a buffer leaves: the byte of each pair of digits at
the place of the pair, and behind these bytes what was there before. -/
structure Decoded (buffer : Bytes) (count : Nat) (decoded : Nat × Bytes) : Prop where
  count_eq : decoded.1 = count / 2
  length_eq : decoded.2.length = buffer.length
  byte_eq : ∀ i < count / 2, (decoded.2.getD i 0).toNat =
    16 * value (buffer.getD (2 * i) 0) + value (buffer.getD (2 * i + 1) 0)
  kept : ∀ i, count / 2 ≤ i → decoded.2[i]? = buffer[i]?

/-- A pair of digits becomes the byte at its place. -/
theorem getD_decodePairs (digits : Bytes) (i : Nat) (h : 2 * i + 1 < digits.length) :
    (decodePairs digits).getD i 0 =
      byteOf (digits.getD (2 * i) 0) (digits.getD (2 * i + 1) 0) := by
  induction i generalizing digits with
  | zero =>
    obtain ⟨high, low, rest, rfl⟩ := exists_pair digits (by omega)
    rfl
  | succ i ih =>
    -- digits and bytes lose their first pair together
    obtain ⟨high, low, rest, rfl⟩ := exists_pair digits (by omega)
    have hrest : 2 * i + 1 < rest.length := by
      simp only [List.length_cons] at h
      omega
    rw [decodePairs, List.getD_cons_succ, ih rest hrest]
    rfl

/-- Of an odd number of digits, or too few, nothing is decoded. -/
theorem decodeInPlace_of_refused {buffer : Bytes} {length : Nat}
    (h : min length buffer.length < 2 ∨ min length buffer.length % 2 = 1) :
    decodeInPlace buffer length = (0, buffer) := by
  rw [decodeInPlace]
  dsimp only
  exact if_pos (h.imp_right (by simp [digitsPerByte]))

/-- An even number of digits is decoded as if from a copy. -/
theorem decoded_decodeInPlace {buffer : Bytes} {length : Nat}
    (h : min length buffer.length % 2 = 0) :
    Decoded buffer (min length buffer.length) (decodeInPlace buffer length) := by
  have htaken : (buffer.take length).length = min length buffer.length := List.length_take
  have hdecode : decode (buffer.take length) = decodePairs (buffer.take length) :=
    if_pos (by rw [htaken]; exact h)
  have hcount : (decodePairs (buffer.take length)).length = min length buffer.length / 2 := by
    rw [length_decodePairs, htaken]
  rw [decodeInPlace_eq, hdecode]
  dsimp only
  generalize hbytes : decodePairs (buffer.take length) = bytes at hcount
  rw [hcount]
  constructor
  case count_eq => rfl
  case length_eq =>
    rw [List.length_append, List.length_drop]
    omega
  case byte_eq =>
    intro i hi
    -- the digits are all in front of the cut, so they are those of the buffer
    have hdigit : ∀ j, j < length → (buffer.take length).getD j 0 = buffer.getD j 0 := by
      intro j hj
      rw [List.getD_eq_getElem?_getD, List.getElem?_take_of_lt hj, List.getD_eq_getElem?_getD]
    rw [List.getD_append _ _ _ _ (by omega), ← hbytes, getD_decodePairs _ _ (by omega),
      toNat_byteOf, hdigit _ (by omega), hdigit _ (by omega)]
  case kept =>
    intro i hi
    rw [List.getElem?_append_right (by omega), hcount, List.getElem?_drop, Nat.add_sub_cancel' hi]

/-- Digits show no more bytes than there are digits. -/
theorem length_decode_le (digits : Bytes) : (decode digits).length ≤ digits.length := by
  rw [decode]
  split
  · rw [length_decodePairs]
    exact Nat.div_le_self _ _
  · exact Nat.zero_le _

/-- Hex text in any mixture of letter cases is decoded in front of other bytes. -/
theorem decodeInPlace_of_sameLetters {digits bytes : Bytes} (h : SameLetters digits (text bytes))
    (rest : Bytes) :
    decodeInPlace (digits ++ rest) digits.length =
      (bytes.length, bytes ++ (digits ++ rest).drop bytes.length) := by
  rw [decodeInPlace_eq, List.take_left, decode_eq_of_sameLetters h, ← encode_eq_text, decode_encode]

end Hex

namespace Load

/-- What decoding the load of a command leaves of the command. -/
inductive Confined : Bytes → Option Bytes × Bytes → Prop
  /-- There is no load, and nothing is changed. -/
  | absent {command : Bytes} (h : Frame.opening ∉ command) : Confined command (none, command)
  /-- The load has taken the place of as many bytes right behind the first opening parenthesis. -/
  | decoded {front replaced rest load : Bytes} (hfront : Frame.opening ∉ front)
      (hload : Hex.Shows ((replaced ++ rest).takeWhile (· ≠ Frame.closing)) load)
      (hlength : replaced.length = load.length) :
      Confined (front ++ Frame.opening :: (replaced ++ rest))
        (some load, front ++ Frame.opening :: (load ++ rest))

/-- Decoding the load of a command changes nothing but the bytes of the load. -/
theorem confined_decodeInPlace (command : Bytes) : Confined command (decodeInPlace command) := by
  by_cases hopening : Frame.opening ∈ command
  · obtain ⟨front, tail, rfl, hfront⟩ := List.eq_append_cons_of_mem hopening
    have hdigits : tail.take (digitCount tail) = tail.takeWhile (· ≠ Frame.closing) :=
      List.prefix_iff_eq_take.1 (List.takeWhile_prefix _) |>.symm
    rw [decodeInPlace, split?_append hfront]
    dsimp only
    rw [Hex.decodeInPlace_eq, hdigits]
    dsimp only
    have hshows := Hex.shows_decode (tail.takeWhile (· ≠ Frame.closing))
    have hlength := Hex.length_decode_le (tail.takeWhile (· ≠ Frame.closing))
    generalize Hex.decode (tail.takeWhile (· ≠ Frame.closing)) = load at hshows hlength
    have hfits : load.length ≤ tail.length :=
      Nat.le_trans hlength (List.takeWhile_prefix _).length_le
    -- the command is split where the bytes of the load end
    have hconfined :
        Confined (front ++ Frame.opening :: (tail.take load.length ++ tail.drop load.length))
          (some load, front ++ Frame.opening :: (load ++ tail.drop load.length)) :=
      .decoded hfront (by rwa [List.take_append_drop]) (List.length_take_of_le hfits)
    rw [List.take_append_drop] at hconfined
    rwa [List.take_left, List.append_assoc, List.singleton_append]
  · rw [decodeInPlace, (split?_eq_none_iff command).2 hopening]
    exact .absent hopening

/-- Decoding within a buffer stores at the place of each pair of digits the byte that the pair has
shown before, and keeps all bytes behind the last one stored; of fewer than two digits, or of an odd
number, it stores nothing. Bytes come back from their hex text in any mixture of letter cases. In a
command nothing is changed but the bytes that the load takes the place of. -/
theorem decoding_confined :
    (∀ (buffer : Bytes) (length : Nat),
      let count := min length buffer.length
      let decoded := Hex.decodeInPlace buffer length
      (count < 2 ∨ count % 2 = 1 → decoded = (0, buffer)) ∧
        (2 ≤ count → count % 2 = 0 → Hex.Decoded buffer count decoded)) ∧
    (∀ bytes digits rest : Bytes, SameLetters digits (Hex.text bytes) →
      Hex.decodeInPlace (digits ++ rest) digits.length =
        (bytes.length, bytes ++ (digits ++ rest).drop bytes.length)) ∧
    ∀ command : Bytes, Confined command (decodeInPlace command) := by
  refine ⟨fun buffer length => ⟨?_, ?_⟩, ?_, confined_decodeInPlace⟩
  · exact Hex.decodeInPlace_of_refused
  · exact fun _ heven => Hex.decoded_decodeInPlace heven
  · exact fun bytes digits rest hletters => Hex.decodeInPlace_of_sameLetters hletters rest

end Load

namespace Frame

/-- The text of a frame: the status, which is the first byte, in front of the parentheses, and the
payload between them. -/
def text (bytes : Bytes) : Bytes :=
  Hex.text (bytes.take 1) ++ Bytes.ofText "(" ++ Hex.text (bytes.drop 1) ++ Bytes.ofText ")\n"

/-- A frame is rendered as the text by the table of digits. -/
theorem render_eq_text (status : UInt8) (payload : Bytes) :
    render status payload = text (status :: payload) := by
  have hopening : Bytes.ofText "(" = [opening] := by decide
  have hend : Bytes.ofText ")\n" = [closing, terminator] := by decide
  rw [render, Hex.encode_eq_text, Hex.encode_eq_text, text, hopening, hend]
  simp

/-- Framing within a buffer gives the text of the old bytes and keeps what is behind it, or changes
nothing if there is nothing to frame or not enough room. The load of the frame is the payload. -/
theorem framing_undone (buffer : Bytes) (length : Nat) :
    let framed := expand buffer length
    let frame := framed.2.take framed.1
    (length = 0 ∨ buffer.length < framedLength length → framed = (0, buffer)) ∧
      (length ≠ 0 → framedLength length ≤ buffer.length →
        framed.1 = framedLength length ∧ frame = text (buffer.take length) ∧
          framed.2.drop framed.1 = buffer.drop framed.1 ∧
          Load.ofCommand? frame = some ((buffer.take length).drop 1)) := by
  intro framed frame
  refine ⟨fun hrefused => if_pos hrefused, fun hlength hroom => ?_⟩
  obtain ⟨count, rfl⟩ := Nat.exists_eq_succ_of_ne_zero hlength
  have hexpand : framed = _ := expand_succ buffer count hroom
  obtain _ | ⟨status, rest⟩ := buffer
  · exact absurd hroom (by simp [framedLength, overhead])
  -- the size of the frame is that of its text, as all of the payload is in the buffer
  rw [List.getD_cons_zero, List.drop_one, List.tail_cons] at hexpand
  have hpayload : (rest.take count).length = count := by
    rw [framedLength_succ, List.length_cons] at hroom
    exact List.length_take_of_le (by omega)
  have hsize : framedLength (count + 1) = (render status (rest.take count)).length := by
    rw [length_render, hpayload]
  have hframe : frame = render status (rest.take count) := by
    show framed.2.take framed.1 = _
    rw [hexpand]
    exact List.take_left' hsize.symm
  refine ⟨by rw [hexpand], ?_, ?_, ?_⟩
  · rw [hframe, render_eq_text, List.take_succ_cons]
  · rw [hexpand]
    exact List.drop_left' hsize.symm
  · rw [hframe, Load.ofCommand?_render]
    rfl

example : expand ([0x00, 0xAB, 0xCD, 0x11] ++ List.replicate 6 0x22) 3 =
    (9, Bytes.ofText "00(ABCD)\n" ++ [0x22]) := by
  decide +kernel

end Frame

end SecureKit

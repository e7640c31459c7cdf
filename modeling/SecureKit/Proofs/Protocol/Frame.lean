import SecureKit.Proofs.Text.Hex
import SecureKit.Protocol.Frame

/-!
# In-Place Framing

Framing within a buffer gives the text that `render` writes for the old bytes: the digits of byte
`i` go to places after `i`, so walking from the last byte to the first never overwrites a byte that
is still to be read.

* `spreadDown_eq` — the digits of the payload, and all else as it was.
* `expand_succ` — what a buffer holds after it was framed.
-/

namespace SecureKit

namespace Hex

/-- The digits of bytes stand one behind the other. -/
theorem encode_append (bytes bytes' : Bytes) :
    encode (bytes ++ bytes') = encode bytes ++ encode bytes' := by
  induction bytes with
  | nil => rfl
  | cons byte rest ih => simp [encode, ih]

end Hex

namespace Frame

/-- Two digits for each byte, two parentheses and the end of the line. -/
theorem framedLength_succ (length : Nat) : framedLength (length + 1) = 2 * length + 5 := rfl

/-- The frame of a success. -/
theorem render_success (payload : Bytes) :
    render KitStatus.success.code payload =
      Bytes.ofText "00(" ++ Hex.encode payload ++ Bytes.ofText ")\n" := by
  have hfront : Bytes.ofText "00(" = Hex.encode [KitStatus.success.code] ++ [opening] := by
    decide
  rw [hfront, List.append_assoc, List.append_assoc, List.singleton_append]
  rfl

/-- A frame of at most `payloadMax` bytes fits into the transmit buffer. -/
theorem framedLength_le {length : Nat} (h : length + 1 ≤ payloadMax) :
    framedLength (length + 1) ≤ bufferSize := by
  have hsize : bufferSize = 2300 := rfl
  have hmax : payloadMax = 1147 := rfl
  rw [framedLength_succ]
  omega

/-- A payload that is counted by one byte fits into the transmit buffer behind a short text. -/
theorem add_framedLength_le {start length : Nat} (hstart : start ≤ 24) (hlength : length < 256) :
    start + framedLength (length + 1) ≤ bufferSize := by
  have hsize : bufferSize = 2300 := rfl
  rw [framedLength_succ]
  omega

/-- Spreading byte `i` puts its digits in front of what follows place `2 * i + 2`. -/
theorem drop_spread (buffer : Bytes) (i : Nat) (h : 2 * i + 2 < buffer.length) :
    (spread buffer i).drop (2 * i + 1) =
      Hex.encode [buffer.getD i 0] ++ buffer.drop (2 * i + 3) := by
  have hend : 2 * i + 1 < buffer.length := by omega
  rw [spread, List.drop_eq_getElem_cons (by simpa using hend),
    List.drop_eq_getElem_cons (by simpa using h), List.getElem_set_self,
    List.getElem_set_ne (by omega), List.getElem_set_self, List.drop_set_of_lt (by omega),
    List.drop_set_of_lt (by omega)]
  rfl

/-- Spreading byte `i` keeps everything in front of its digits. -/
theorem take_spread (buffer : Bytes) (i count : Nat) (h : count ≤ 2 * i + 1) :
    (spread buffer i).take count = buffer.take count := by
  rw [spread, List.take_set_of_le h, List.take_set_of_le (by omega)]

/-- Spreading bytes `count` down to 1 puts their digits from place 3 on. -/
theorem spreadDown_eq (count : Nat) (buffer : Bytes) (h : 2 * count + 2 < buffer.length) :
    spreadDown count buffer =
      buffer.take 3 ++ Hex.encode ((buffer.drop 1).take count) ++ buffer.drop (2 * count + 3) := by
  induction count generalizing buffer with
  | zero => simp [spreadDown, Hex.encode]
  | succ count ih =>
    -- the byte spread first is the last one of the payload
    have hread : (buffer.drop 1).take (count + 1) =
        (buffer.drop 1).take count ++ [buffer.getD (count + 1) 0] := by
      have hplace : count < (buffer.drop 1).length := by rw [List.length_drop]; omega
      rw [List.take_succ_eq_append_getElem hplace, List.getElem_drop, List.getD_eq_getElem?_getD,
        List.getElem?_eq_getElem (by omega), Option.getD_some]
      congr 3
      omega
    -- the bytes still to be spread are in front of the two digits written here
    have hkept : ((spread buffer (count + 1)).drop 1).take count = (buffer.drop 1).take count := by
      rw [List.take_drop, List.take_drop, take_spread _ _ _ (by omega)]
    rw [spreadDown, ih _ (by rw [length_spread]; omega), take_spread _ _ _ (by omega), hkept, hread,
      Hex.encode_append, show 2 * count + 3 = 2 * (count + 1) + 1 by omega,
      drop_spread _ _ (by omega)]
    simp only [List.append_assoc]

/-- Framing `length + 1` bytes for which there is room writes the text of the frame to the start of
the buffer, and keeps what comes after it. -/
theorem expand_succ (buffer : Bytes) (length : Nat)
    (h : framedLength (length + 1) ≤ buffer.length) :
    expand buffer (length + 1) =
      (framedLength (length + 1),
        render (buffer.getD 0 0) ((buffer.drop 1).take length) ++
          buffer.drop (framedLength (length + 1))) := by
  rw [framedLength_succ] at h ⊢
  have hnonzero : ¬(length + 1 = 0 ∨ buffer.length < 2 * length + 5) := by omega
  rw [expand, framedLength_succ]
  dsimp only
  rw [if_neg hnonzero, show 2 * length + 5 - 1 = 2 * length + 4 by omega,
    show 2 * length + 5 - 2 = 2 * length + 3 by omega, Nat.add_sub_cancel]
  -- the end of the frame is written first, behind everything that is still to be read
  generalize hended :
    (buffer.set (2 * length + 4) terminator).set (2 * length + 3) closing = ended
  have hlength : ended.length = buffer.length := by simp [← hended]
  have htake : ∀ count, count ≤ 2 * length + 3 → ended.take count = buffer.take count := by
    intro count hcount
    rw [← hended, List.take_set_of_le hcount, List.take_set_of_le (by omega)]
  -- so the payload is still the old one, and the digits end right in front of the closing mark
  have hdrop : ended.drop (2 * length + 3) =
      [closing, terminator] ++ buffer.drop (2 * length + 5) := by
    rw [← hended, List.drop_eq_getElem_cons (by simp; omega),
      List.drop_eq_getElem_cons (by simp; omega), List.getElem_set_self,
      List.getElem_set_ne (by omega), List.getElem_set_self, List.drop_set_of_lt (by omega),
      List.drop_set_of_lt (by omega)]
    rfl
  rw [spreadDown_eq length ended (by omega), htake 3 (by omega), List.take_drop,
    htake (1 + length) (by omega), ← List.take_drop, hdrop]
  -- what remains is at places 0 to 2: the status digits and the opening mark
  match buffer, h with
  | status :: b :: c :: tail, _ => simp [render, Hex.encode]

end Frame

end SecureKit

import SecureKit.Proofs.Protocol.Frame
import SecureKit.Protocol.Load

/-!
# Loads Between Parentheses

The load of a command is what its digits show, from the first opening parenthesis to the first
closing one after it.

* `ofCommand?_enclosed` — the load of a text with one pair of parentheses.
* `ofCommand?_render` — a frame carries its payload as its load.
-/

namespace SecureKit

/-- All bytes of a text differ from one that does not occur in it. -/
theorem Bytes.ne_of_not_mem {text : Bytes} {c : UInt8} (h : c ∉ text) :
    ∀ b ∈ text, decide (b ≠ c) = true := by
  intro b hb
  have hne : b ≠ c := fun heq => h (heq ▸ hb)
  simpa using hne

/-- A character that is no digit does not occur in hex text. -/
theorem Hex.IsText.not_mem {text : Bytes} (h : Hex.IsText text) {c : UInt8}
    (hc : ¬Hex.IsDigit c) : c ∉ text := fun hmem => hc (h.isDigit c hmem)

namespace Load

/-- A command splits at its first opening parenthesis. -/
theorem split?_append {front : Bytes} (h : Frame.opening ∉ front) (rest : Bytes) :
    split? (front ++ Frame.opening :: rest) = some (front ++ [Frame.opening], rest) := by
  have hfront := Bytes.ne_of_not_mem h
  rw [split?, List.dropWhile_append_of_pos hfront, List.takeWhile_append_of_pos hfront]
  simp

/-- The digits of a load end at its first closing parenthesis. -/
theorem digitCount_append {digits : Bytes} (h : Frame.closing ∉ digits) (rest : Bytes) :
    digitCount (digits ++ Frame.closing :: rest) = digits.length := by
  rw [digitCount, List.takeWhile_append_of_pos (Bytes.ne_of_not_mem h)]
  simp

/-- The load of a command is the bytes shown by the digits between its parentheses. -/
theorem ofCommand?_enclosed {front digits : Bytes} (hfront : Frame.opening ∉ front)
    (hdigits : Frame.closing ∉ digits) (rest : Bytes) :
    ofCommand? (front ++ Frame.opening :: (digits ++ Frame.closing :: rest)) =
      some (Hex.decode digits) := by
  rw [ofCommand?, decodeInPlace, split?_append hfront]
  dsimp only
  -- what was in front of the digits is put back, and the load is read behind it
  rw [digitCount_append hdigits, Hex.decodeInPlace_eq]
  simp

/-- A frame carries its payload as its load. -/
theorem ofCommand?_render (status : UInt8) (payload : Bytes) :
    ofCommand? (Frame.render status payload) = some payload := by
  have hopening : Frame.opening ∉ Hex.encode [status] :=
    (Hex.isText_encode [status]).not_mem (by decide)
  have hclosing : Frame.closing ∉ Hex.encode payload :=
    (Hex.isText_encode payload).not_mem (by decide)
  have := ofCommand?_enclosed hopening hclosing [Frame.terminator]
  simpa [Frame.render] using this

end Load

end SecureKit

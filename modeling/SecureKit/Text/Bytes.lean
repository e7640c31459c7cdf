/-!
# Byte Buffers

Buffers are lists of bytes. What a peripheral stores into a buffer lands at its start and never
makes it longer (`length_overlay`); text enters and leaves a buffer as UTF-8, and reading back what
was written gives the text again (`text?_ofText`).

* `overlay_append` — parts of a text are written one behind the other.
* `toList_window` — a window within a buffer shows its bytes.
* `exists_ofText_eq` — ASCII characters are UTF-8.
-/

namespace SecureKit

/-- A byte string or the content of a buffer. -/
abbrev Bytes := List UInt8

namespace Bytes

/-- The character `c` as one byte; meant for ASCII characters. -/
abbrev ascii (c : Char) : UInt8 := c.toUInt8

/-- A buffer of `size` zero bytes. -/
def zeros (size : Nat) : Bytes := List.replicate size 0

/-- `buffer` cut to `size` bytes, or extended to them with zero bytes. -/
def resize (buffer : Bytes) (size : Nat) : Bytes :=
  buffer.take size ++ zeros (size - buffer.length)

/-- `buffer` after `stored` was written to its bytes from `start` on. What does not fit is lost. -/
def overlay (buffer : Bytes) (start : Nat) (stored : Bytes) : Bytes :=
  (buffer.take start ++ stored ++ buffer.drop (start + stored.length)).take buffer.length

/-- The `count` bytes of `buffer` from `start` on, with zero bytes for those it does not have. -/
def window (buffer : Bytes) (start count : Nat) : Vector UInt8 count :=
  Vector.ofFn fun i => buffer.getD (start + i) 0

/-- The UTF-8 bytes of `text`. -/
def ofText (text : String) : Bytes := text.toByteArray.data.toList

/-- The text that `bytes` encode, unless they are not UTF-8. -/
def text? (bytes : Bytes) : Option String := String.fromUTF8? ⟨bytes.toArray⟩

/-- The number in `bytes`, least significant byte first. -/
def littleEndian : Bytes → Nat
  | [] => 0
  | low :: rest => low.toNat + 256 * littleEndian rest

/-- A property of bytes holds of all of them if it holds of the 256 numbers below 256. -/
theorem forall_of_fin {p : UInt8 → Prop} (h : ∀ i : Fin 256, p (UInt8.ofNat i)) (byte : UInt8) :
    p byte := by
  simpa using h ⟨byte.toNat, byte.toNat_lt⟩

@[simp]
theorem length_zeros (size : Nat) : (zeros size).length = size := by
  simp [zeros]

@[simp]
theorem length_resize (buffer : Bytes) (size : Nat) : (buffer.resize size).length = size := by
  simp [resize]
  omega

/-- Place by place, a resized buffer has the bytes of the buffer and zero bytes after them. -/
theorem resize_eq_map_range (buffer : Bytes) (size : Nat) :
    buffer.resize size = (List.range size).map fun i => buffer.getD i 0 := by
  refine List.ext_getElem (by simp) fun i hi _ => ?_
  simp only [length_resize] at hi
  simp only [resize, zeros, List.getElem_append, List.getElem_take, List.getElem_replicate,
    List.length_take, List.getElem_map, List.getElem_range, List.getD_eq_getElem?_getD]
  split
  · rw [List.getElem?_eq_getElem (by omega), Option.getD_some]
  · rw [List.getElem?_eq_none (by omega), Option.getD_none]

/-- Writing into a buffer keeps its size. -/
@[simp]
theorem length_overlay (buffer : Bytes) (start : Nat) (stored : Bytes) :
    (buffer.overlay start stored).length = buffer.length := by
  simp [overlay]
  omega

/-- Storing nothing changes nothing. -/
@[simp]
theorem overlay_nil (buffer : Bytes) (start : Nat) : buffer.overlay start [] = buffer := by
  simp [overlay]

/-- What is written into a buffer with room for it stands between the bytes around it. -/
theorem overlay_of_le {buffer stored : Bytes} {start : Nat}
    (h : start + stored.length ≤ buffer.length) :
    buffer.overlay start stored =
      buffer.take start ++ stored ++ buffer.drop (start + stored.length) := by
  -- nothing is cut, for the parts make up the size of the buffer
  refine List.take_of_length_le ?_
  simp only [List.length_append, List.length_take, List.length_drop]
  omega

/-- What is written right behind the bytes written before takes the place of as many bytes. -/
theorem overlay_append (written : Bytes) {part rest : Bytes} (h : part.length ≤ rest.length) :
    (written ++ rest).overlay written.length part = written ++ part ++ rest.drop part.length := by
  rw [overlay_of_le (by simpa using h), List.take_left, ← List.drop_drop, List.drop_left]

/-- A window that lies within a buffer shows the bytes of the buffer. -/
theorem toList_window {buffer : Bytes} {start count : Nat} (h : start + count ≤ buffer.length) :
    (buffer.window start count).toList = (buffer.drop start).take count := by
  rw [window, Vector.toList_ofFn]
  refine List.ext_getElem ?_ fun i hi _ => ?_
  · rw [List.length_ofFn, List.length_take_of_le]
    rw [List.length_drop]
    omega
  · rw [List.length_ofFn] at hi
    rw [List.getElem_ofFn, List.getElem_take, List.getElem_drop, List.getD_eq_getElem?_getD,
      List.getElem?_eq_getElem (by omega), Option.getD_some]

/-- The two bytes of a number make it up again. -/
theorem littleEndian_halves (number : UInt16) :
    littleEndian [number.toUInt8, (number >>> 8).toUInt8] = number.toNat := by
  have := number.toNat_lt
  simp [littleEndian, Nat.shiftRight_eq_div_pow]
  omega

/-- Text written as UTF-8 reads back. -/
@[simp]
theorem text?_ofText (text : String) : (ofText text).text? = some text := by
  have h : (⟨text.toByteArray.data.toList.toArray⟩ : ByteArray) = text.toByteArray := by simp
  rw [text?, ofText, h, String.fromUTF8?, dif_pos text.isValidUTF8]
  rfl

/-- Bytes that are ASCII characters are the UTF-8 bytes of a text. -/
theorem exists_ofText_eq {bytes : Bytes} (h : ∀ c ∈ bytes, c < 0x80) :
    ∃ text : String, ofText text = bytes := by
  have hchar : ∀ c : UInt8, c < 0x80 → String.utf8EncodeChar (Char.ofUInt8 c) = [c] :=
    forall_of_fin (by decide +kernel)
  refine ⟨String.ofList (bytes.map Char.ofUInt8), ?_⟩
  rw [ofText, String.toByteArray_ofList, List.utf8Encode, List.toList_data_toByteArray,
    List.flatMap_map]
  -- each character becomes the one byte it was made of
  induction bytes with
  | nil => rfl
  | cons c rest ih =>
    obtain ⟨hc, hrest⟩ := List.forall_mem_cons.1 h
    rw [List.flatMap_cons, hchar c hc, ih hrest]
    rfl

end Bytes

end SecureKit

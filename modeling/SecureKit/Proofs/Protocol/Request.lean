import SecureKit.Proofs.Protocol.Load
import SecureKit.Protocol.Request

/-!
# Reading Command Lines

A line is read without regard to the case of its letters and to a terminator at its end.

* `ofReceived_eq_of_sameLetters` — lines that differ in the case of letters are the same request.
* `ofReceived_of_sameLetters_talkLine` — the line that asks to talk is read as that request, with
  its packet.
-/

namespace SecureKit

/-- An ASCII letter. -/
def IsLetter (c : UInt8) : Prop :=
  (Bytes.ascii 'A' ≤ c ∧ c ≤ Bytes.ascii 'Z') ∨ (Bytes.ascii 'a' ≤ c ∧ c ≤ Bytes.ascii 'z')

instance (c : UInt8) : Decidable (IsLetter c) := inferInstanceAs (Decidable (_ ∨ _))

/-- Lower-casing changes letters only, and into letters. -/
theorem lowerCase_eq_self_or (c : UInt8) :
    lowerCase c = c ∨ (IsLetter c ∧ IsLetter (lowerCase c)) := by
  revert c
  exact Bytes.forall_of_fin (by decide +kernel)

/-- A byte that is no letter is the lower-case form of itself only. -/
theorem lowerCase_eq_iff {mark : UInt8} (h : ¬IsLetter mark) (c : UInt8) :
    lowerCase c = mark ↔ c = mark := by
  rcases lowerCase_eq_self_or c with hsame | ⟨hletter, hletter'⟩
  · rw [hsame]
  · constructor
    · rintro rfl
      exact absurd hletter' h
    · rintro rfl
      exact absurd hletter h

/-- Lower-casing a text brings in no byte that is no letter. -/
theorem notMem_map_lowerCase {text : Bytes} {mark : UInt8} (h : ¬IsLetter mark)
    (hmark : mark ∉ text) : mark ∉ text.map lowerCase := by
  intro hmem
  obtain ⟨c, hc, hlower⟩ := List.mem_map.1 hmem
  rw [lowerCase_eq_iff h] at hlower
  exact hmark (hlower ▸ hc)

/-- The digits of bytes are lowered with the line, which does not change what they show. -/
theorem Hex.decode_map_lowerCase_encode (bytes : Bytes) :
    decode ((encode bytes).map lowerCase) = bytes := by
  rw [decode_eq_of_sameLetters (sameLetters_map_lowerCase _), decode_encode]

/-- No hex text ends a load, in whatever letter case. -/
theorem Hex.closing_notMem_map_lowerCase_encode (bytes : Bytes) :
    Frame.closing ∉ (encode bytes).map lowerCase :=
  notMem_map_lowerCase (by decide) ((isText_encode bytes).not_mem (by decide))

/-- The terminator of a line is the same in lower case. -/
theorem map_lowerCase_withoutTerminator (line : Bytes) :
    (withoutTerminator line).map lowerCase = withoutTerminator (line.map lowerCase) := by
  have hlast : (line.map lowerCase).getLast? = some Frame.terminator ↔
      line.getLast? = some Frame.terminator := by
    rw [List.getLast?_map, Option.map_eq_some_iff]
    constructor
    · rintro ⟨c, hc, hlower⟩
      rw [hc, (lowerCase_eq_iff (by decide) c).1 hlower]
    · intro h
      exact ⟨_, h, by decide⟩
  rw [withoutTerminator, withoutTerminator]
  -- so both sides drop a terminator, or neither does
  by_cases h : line.getLast? = some Frame.terminator
  · rw [if_pos h, if_pos (hlast.2 h), List.map_dropLast]
  · rw [if_neg h, if_neg fun h' => h (hlast.1 h')]

/-- Lines that differ in nothing but the case of letters are the same request. -/
theorem Request.ofReceived_eq_of_sameLetters {line line' : Bytes} (h : SameLetters line line') :
    ofReceived line = ofReceived line' := by
  rw [ofReceived, ofReceived, map_lowerCase_withoutTerminator, map_lowerCase_withoutTerminator, h]

/-- What comes after the first colon of a line. -/
theorem afterColon?_append {front : Bytes} (h : Bytes.ascii ':' ∉ front) (rest : Bytes) :
    afterColon? (front ++ Bytes.ascii ':' :: rest) = some rest := by
  rw [afterColon?, List.dropWhile_append_of_pos (Bytes.ne_of_not_mem h)]
  simp

/-- The name of a library in front of a line, with the marks around it. -/
def libraryText : Option Bytes → Bytes
  | none => []
  | some name => Bytes.ascii 'l' :: name ++ [Bytes.ascii ':']

/-- The line that asks to send a packet to the device and to receive its response. -/
def talkLine (library : Option Bytes) (selector : UInt8) (packet : Bytes) : Bytes :=
  libraryText library ++ selector :: Bytes.ofText ":t(" ++ Hex.encode packet ++ [Frame.closing]

/-- The line that asks to talk does not bring its own terminator. -/
theorem getLast?_talkLine (library : Option Bytes) (selector : UInt8) (packet : Bytes) :
    (talkLine library selector packet).getLast? ≠ some Frame.terminator := by
  rw [talkLine, List.getLast?_concat]
  decide

/-- The name of a library in front of a line is passed over. -/
theorem Request.ofLine_library {name : Bytes} (h : Bytes.ascii ':' ∉ name) (line : Bytes) :
    ofLine (Bytes.ascii 'l' :: name ++ Bytes.ascii ':' :: line) = ofSelector line := by
  have hcolon : Bytes.ascii ':' ∉ Bytes.ascii 'l' :: name :=
    List.not_mem_cons_of_ne_of_not_mem (by decide) h
  have hhead : (Bytes.ascii 'l' :: name ++ Bytes.ascii ':' :: line).head? =
      some (Bytes.ascii 'l') := rfl
  rw [ofLine, if_pos hhead, afterColon?_append hcolon]

/-- From its selector on, the line that asks to talk is read as that request. -/
theorem Request.ofSelector_talk {selector : UInt8} {digits packet : Bytes}
    (hselector : selector = Bytes.ascii 's' ∨ selector = Bytes.ascii 'e')
    (hclosing : Frame.closing ∉ digits) (hdigits : Hex.decode digits = packet) :
    ofSelector (selector :: Bytes.ofText ":t(" ++ digits ++ [Frame.closing]) =
      .device (.talk (some packet)) := by
  have hcolon : Bytes.ascii ':' ∉ [selector] := by
    rcases hselector with rfl | rfl <;> decide
  have hafter : afterColon? (selector :: Bytes.ofText ":t(" ++ digits ++ [Frame.closing]) =
      some (Bytes.ascii 't' :: Frame.opening :: (digits ++ [Frame.closing])) :=
    afterColon?_append hcolon _
  have hload : Load.ofCommand? (Frame.opening :: (digits ++ [Frame.closing])) = some packet :=
    hdigits ▸ Load.ofCommand?_enclosed (List.not_mem_nil) hclosing []
  have htext : DeviceCommand.ofText (selector :: Bytes.ofText ":t(" ++ digits ++ [Frame.closing]) =
      .talk (some packet) := by
    rw [DeviceCommand.ofText, hafter]
    dsimp only
    rw [if_pos rfl, hload]
  rw [List.cons_append, List.cons_append] at htext ⊢
  rw [ofSelector, if_pos hselector, htext]

/-- The line that asks to talk is read as that request, with its packet. -/
theorem Request.ofReceived_talkLine {library : Option Bytes} {selector : UInt8} (packet : Bytes)
    (hlibrary : ∀ name ∈ library, Bytes.ascii ':' ∉ name)
    (hselector : selector = Bytes.ascii 's' ∨ selector = Bytes.ascii 'e') :
    ofReceived (talkLine library selector packet) = .device (.talk (some packet)) := by
  have hunterminated : withoutTerminator (talkLine library selector packet) =
      talkLine library selector packet := if_neg (getLast?_talkLine library selector packet)
  -- the selector and the sub-command are in lower case already
  have hlower : (talkLine library selector packet).map lowerCase =
      (libraryText library).map lowerCase ++
        (selector :: Bytes.ofText ":t(" ++ (Hex.encode packet).map lowerCase ++
          [Frame.closing]) := by
    have hsame : lowerCase selector = selector := by
      rcases hselector with rfl | rfl <;> decide
    have htoken : (Bytes.ofText ":t(").map lowerCase = Bytes.ofText ":t(" := by decide
    have hclosing : lowerCase Frame.closing = Frame.closing := by decide
    simp [talkLine, hsame, htoken, hclosing]
  -- the digits are lowered too, which neither hides nor adds a closing mark, nor changes a byte
  have hbody := ofSelector_talk hselector (Hex.closing_notMem_map_lowerCase_encode packet)
    (Hex.decode_map_lowerCase_encode packet)
  rw [ofReceived, hunterminated, hlower]
  cases library with
  | none =>
    -- the selector is not taken for the start of a library
    have hhead : selector ≠ Bytes.ascii 'l' := by
      rcases hselector with rfl | rfl <;> decide
    exact (if_neg fun h => hhead (Option.some.inj h)).trans hbody
  | some name =>
    have hname : Bytes.ascii ':' ∉ name.map lowerCase :=
      notMem_map_lowerCase (by decide) (hlibrary name rfl)
    have htext : (libraryText (some name)).map lowerCase =
        Bytes.ascii 'l' :: name.map lowerCase ++ [Bytes.ascii ':'] := by
      rw [libraryText, List.map_append]
      rfl
    rw [htext, List.append_assoc, List.singleton_append]
    exact (ofLine_library hname _).trans hbody

/-- The line that asks to talk may be in any case and end in a terminator. -/
theorem Request.ofReceived_of_sameLetters_talkLine {library : Option Bytes} {selector : UInt8}
    {packet line : Bytes} (hlibrary : ∀ name ∈ library, Bytes.ascii ':' ∉ name)
    (hselector : selector = Bytes.ascii 's' ∨ selector = Bytes.ascii 'e')
    (hline : SameLetters line (talkLine library selector packet) ∨
      SameLetters line (talkLine library selector packet ++ [Frame.terminator])) :
    ofReceived line = .device (.talk (some packet)) := by
  rw [← ofReceived_talkLine packet hlibrary hselector]
  rcases hline with hline | hline
  · exact ofReceived_eq_of_sameLetters hline
  · rw [ofReceived_eq_of_sameLetters hline]
    exact ofReceived_terminated (getLast?_talkLine library selector packet)

end SecureKit

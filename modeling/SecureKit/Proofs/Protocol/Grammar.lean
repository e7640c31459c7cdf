import Mathlib.Data.List.TakeWhile
import Mathlib.Tactic.SplitIfs
import SecureKit.Proofs.Protocol.Request

/-!
# The Language of Command Lines

The grammar of command lines, as relations between texts and what they denote. A filler is any text
without a colon, and may stand in front of each colon that the grammar asks for.

* `Hex.Shows`, `Load.Denotes` — digits show bytes, and a load is what digits between parentheses
  show.
* `PhysicalCommand.Denotes`, `DeviceCommand.Denotes`, `BoardCommand.Denotes` — the sub-commands.
* `Request.Denotes` — the lines.
* `Request.ofLine_eq_iff` — reading a line finds what the line denotes and nothing else.
-/

namespace SecureKit

namespace Hex

/-- The value of a hex digit of either case; every other character counts as zero. -/
def value (c : UInt8) : Nat :=
  ((Bytes.ofText "0123456789abcdef").idxOf? (lowerCase c)).getD 0

/-- Digits show bytes, the high digit of each byte first. An odd number of digits shows none. -/
inductive Shows : Bytes → Bytes → Prop
  | odd {digits : Bytes} (hodd : digits.length % 2 = 1) : Shows digits []
  | nil : Shows [] []
  | pair {high low byte : UInt8} {digits bytes : Bytes} (hrest : Shows digits bytes)
      (heven : digits.length % 2 = 0) (hbyte : byte.toNat = 16 * value high + value low) :
      Shows (high :: low :: digits) (byte :: bytes)

/-- The value of a digit fits into four bits. -/
theorem value_lt (c : UInt8) : value c < 16 := by
  revert c
  exact Bytes.forall_of_fin (by decide +kernel)

/-- The four bits of a digit are its value. -/
theorem nibble_eq (c : UInt8) : nibble c = UInt8.ofNat (value c) := by
  revert c
  exact Bytes.forall_of_fin (by decide +kernel)

/-- The byte of two digits is sixteen times the value of the high digit and that of the low one. -/
theorem toNat_byteOf (high low : UInt8) :
    (byteOf high low).toNat = 16 * value high + value low := by
  have hjoin : ∀ a b : Fin 16,
      ((UInt8.ofNat a <<< 4) ||| UInt8.ofNat b).toNat = 16 * a.val + b.val := by
    decide +kernel
  rw [byteOf, nibble_eq, nibble_eq]
  exact hjoin ⟨value high, value_lt high⟩ ⟨value low, value_lt low⟩

/-- The first pair of an even number of digits shows the first byte. -/
theorem decode_pair (high low : UInt8) {digits : Bytes} (heven : digits.length % 2 = 0) :
    decode (high :: low :: digits) = byteOf high low :: decode digits := by
  have heven' : (high :: low :: digits).length % 2 = 0 := by
    simp only [List.length_cons]
    omega
  rw [decode, decode, digitsPerByte, if_pos heven, if_pos heven', decodePairs]

/-- Digits are decoded to the bytes that they show. -/
theorem Shows.decode_eq {digits bytes : Bytes} (h : Shows digits bytes) :
    decode digits = bytes := by
  induction h with
  | odd hodd =>
    refine if_neg fun heven => ?_
    rw [digitsPerByte, hodd] at heven
    exact absurd heven (by decide)
  | nil => rfl
  | @pair high low byte digits bytes hrest heven hbyte ih =>
    have hbyte' : byteOf high low = byte := by
      apply UInt8.toNat_inj.1
      rw [toNat_byteOf, hbyte]
    rw [decode_pair high low heven, ih, hbyte']

/-- All digits show what they are decoded to. -/
theorem shows_decode : ∀ digits : Bytes, Shows digits (decode digits)
  | [] => .nil
  | [c] => .odd rfl
  | high :: low :: digits => by
    rcases Nat.mod_two_eq_zero_or_one digits.length with heven | hodd
    · rw [decode_pair high low heven]
      exact .pair (shows_decode digits) heven (toNat_byteOf high low)
    · -- two digits more leave the number odd, so nothing is shown at all
      have hodd' : (high :: low :: digits).length % 2 = 1 := by
        simp only [List.length_cons]
        omega
      rw [(Shows.odd hodd').decode_eq]
      exact .odd hodd'

end Hex

namespace Load

/-- The load that the text after a token denotes: what the digits show from the first opening
parenthesis to the next closing one, or to the end of the text. -/
inductive Denotes : Bytes → CommandLoad → Prop
  | absent {text : Bytes} (h : Frame.opening ∉ text) : Denotes text none
  | closed {front digits back bytes : Bytes} (hfront : Frame.opening ∉ front)
      (hdigits : Frame.closing ∉ digits) (hbytes : Hex.Shows digits bytes) :
      Denotes (front ++ Frame.opening :: (digits ++ Frame.closing :: back)) (some bytes)
  | unclosed {front digits bytes : Bytes} (hfront : Frame.opening ∉ front)
      (hdigits : Frame.closing ∉ digits) (hbytes : Hex.Shows digits bytes) :
      Denotes (front ++ Frame.opening :: digits) (some bytes)

/-- Without a closing parenthesis the load reaches to the end. -/
theorem ofCommand?_unclosed {front digits : Bytes} (hfront : Frame.opening ∉ front)
    (hdigits : Frame.closing ∉ digits) :
    ofCommand? (front ++ Frame.opening :: digits) = some (Hex.decode digits) := by
  have hcount : digitCount digits = digits.length := by
    rw [digitCount, List.takeWhile_eq_self_iff.2 (Bytes.ne_of_not_mem hdigits)]
  rw [ofCommand?, decodeInPlace, split?_append hfront]
  dsimp only
  rw [hcount, Hex.decodeInPlace_eq]
  simp

/-- The load of a command is the one that its text denotes. -/
theorem Denotes.ofCommand?_eq {text : Bytes} {load : CommandLoad} (h : Denotes text load) :
    ofCommand? text = load := by
  cases h with
  | absent h => exact (ofCommand?_eq_none_iff text).2 h
  | closed hfront hdigits hbytes =>
    rw [ofCommand?_enclosed hfront hdigits, hbytes.decode_eq]
  | unclosed hfront hdigits hbytes =>
    rw [ofCommand?_unclosed hfront hdigits, hbytes.decode_eq]

/-- Every text denotes the load that is found in it. -/
theorem denotes_ofCommand? (text : Bytes) : Denotes text (ofCommand? text) := by
  by_cases hopening : Frame.opening ∈ text
  · obtain ⟨front, rest, rfl, hfront⟩ := List.eq_append_cons_of_mem hopening
    -- the first closing parenthesis behind the opening one counts, not the first of the text
    by_cases hclosing : Frame.closing ∈ rest
    · obtain ⟨digits, back, rfl, hdigits⟩ := List.eq_append_cons_of_mem hclosing
      rw [ofCommand?_enclosed hfront hdigits]
      exact .closed hfront hdigits (Hex.shows_decode digits)
    · rw [ofCommand?_unclosed hfront hclosing]
      exact .unclosed hfront hclosing (Hex.shows_decode rest)
  · rw [(ofCommand?_eq_none_iff text).2 hopening]
    exact .absent hopening

end Load

/-- A text is a filler, a colon and the rest. -/
def AfterFiller (text rest : Bytes) : Prop :=
  ∃ filler, Bytes.ascii ':' ∉ filler ∧ text = filler ++ Bytes.ascii ':' :: rest

/-- What is behind the first colon is found. -/
theorem AfterFiller.afterColon?_eq {text rest : Bytes} (h : AfterFiller text rest) :
    afterColon? text = some rest := by
  obtain ⟨filler, hfiller, rfl⟩ := h
  exact afterColon?_append hfiller rest

/-- Without a colon nothing is behind one. -/
theorem afterColon?_of_notMem {text : Bytes} (h : Bytes.ascii ':' ∉ text) :
    afterColon? text = none := by
  rw [afterColon?, List.dropWhile_eq_nil_iff.2 (Bytes.ne_of_not_mem h)]

/-- A text has a colon or not, and what comes after the first one is found in either case. -/
theorem afterColon?_cases (text : Bytes) :
    (Bytes.ascii ':' ∉ text ∧ afterColon? text = none) ∨
      ∃ rest, AfterFiller text rest ∧ afterColon? text = some rest := by
  by_cases h : Bytes.ascii ':' ∈ text
  · obtain ⟨filler, rest, rfl, hfiller⟩ := List.eq_append_cons_of_mem h
    exact .inr ⟨rest, ⟨filler, hfiller, rfl⟩, afterColon?_append hfiller rest⟩
  · exact .inl ⟨h, afterColon?_of_notMem h⟩

/-- A text starts with none of the letters of a command. -/
def NoToken (letters : List Char) (text : Bytes) : Prop :=
  ∀ token ∈ text.head?, token ∉ letters.map Bytes.ascii

theorem noToken_nil (letters : List Char) : NoToken letters [] := by simp [NoToken]

theorem noToken_cons {letters : List Char} {token : UInt8} (h : token ∉ letters.map Bytes.ascii)
    (rest : Bytes) : NoToken letters (token :: rest) := by
  intro token' htoken
  obtain rfl := Option.some.inj htoken
  exact h

/-- The first character of a text is compared with the letters one by one. -/
theorem noToken_cons_iff {letters : List Char} {token : UInt8} {rest : Bytes} :
    NoToken letters (token :: rest) ↔ ∀ letter ∈ letters, token ≠ Bytes.ascii letter := by
  simp [NoToken, eq_comm]

namespace PhysicalCommand

/-- The bus command that the text after the letter `p` denotes. -/
inductive Denotes : Bytes → PhysicalCommand → Prop
  | missing {text : Bytes} (h : Bytes.ascii ':' ∉ text) : Denotes text missing
  | wake {text rest : Bytes} (h : AfterFiller text (Bytes.ascii 'w' :: rest)) : Denotes text wake
  | send {text rest : Bytes} {load : CommandLoad}
      (h : AfterFiller text (Bytes.ascii 'c' :: rest)) (hload : Load.Denotes rest load) :
      Denotes text (send load)
  | receive {text rest : Bytes} {load : CommandLoad}
      (h : AfterFiller text (Bytes.ascii 'r' :: rest)) (hload : Load.Denotes rest load) :
      Denotes text (receive load)
  | select {text rest : Bytes} {load : CommandLoad}
      (h : AfterFiller text (Bytes.ascii 's' :: rest)) (hload : Load.Denotes rest load) :
      Denotes text (select load)
  | unknown {text rest : Bytes} (h : AfterFiller text rest)
      (htoken : NoToken ['w', 'c', 'r', 's'] rest) : Denotes text unknown

/-- The command for the bus is the one that the text denotes. -/
theorem Denotes.ofText_eq {text : Bytes} {command : PhysicalCommand} (h : Denotes text command) :
    ofText text = command := by
  cases h with
  | missing h => rw [ofText, afterColon?_of_notMem h]
  | wake h =>
    rw [ofText, h.afterColon?_eq]
    rfl
  | send h hload =>
    rw [ofText, h.afterColon?_eq]
    exact congrArg PhysicalCommand.send hload.ofCommand?_eq
  | receive h hload =>
    rw [ofText, h.afterColon?_eq]
    exact congrArg PhysicalCommand.receive hload.ofCommand?_eq
  | select h hload =>
    rw [ofText, h.afterColon?_eq]
    exact congrArg PhysicalCommand.select hload.ofCommand?_eq
  | @unknown rest h htoken =>
    rw [ofText, h.afterColon?_eq]
    cases rest with
    | nil => rfl
    | cons token rest =>
      have hnone := noToken_cons_iff.1 htoken
      simp only [List.forall_mem_cons] at hnone
      simp [hnone]

/-- Every text denotes the command for the bus that is found in it. -/
theorem denotes_ofText (text : Bytes) : Denotes text (ofText text) := by
  obtain ⟨hcolon, hafter⟩ | ⟨rest, hrest, hafter⟩ := afterColon?_cases text
  · rw [ofText, hafter]
    exact .missing hcolon
  rw [ofText, hafter]
  cases rest with
  | nil => exact .unknown hrest (noToken_nil _)
  | cons token rest =>
    dsimp only
    -- the letters are tried in order, and the last case has the refusals of all of them
    split_ifs with hw hc hr hs
    · exact .wake (hw ▸ hrest)
    · exact .send (hc ▸ hrest) (Load.denotes_ofCommand? rest)
    · exact .receive (hr ▸ hrest) (Load.denotes_ofCommand? rest)
    · exact .select (hs ▸ hrest) (Load.denotes_ofCommand? rest)
    · refine .unknown hrest (noToken_cons_iff.2 ?_)
      simp [hw, hc, hr, hs]

end PhysicalCommand

namespace DeviceCommand

/-- The device command that a line denotes, from its selector on. -/
inductive Denotes : Bytes → DeviceCommand → Prop
  | empty {text : Bytes} (h : Bytes.ascii ':' ∉ text) : Denotes text empty
  | talk {text rest : Bytes} {load : CommandLoad}
      (h : AfterFiller text (Bytes.ascii 't' :: rest)) (hload : Load.Denotes rest load) :
      Denotes text (talk load)
  | wake {text rest : Bytes} (h : AfterFiller text (Bytes.ascii 'w' :: rest)) : Denotes text wake
  | sleep {text rest : Bytes} (h : AfterFiller text (Bytes.ascii 's' :: rest)) : Denotes text sleep
  | idle {text rest : Bytes} (h : AfterFiller text (Bytes.ascii 'i' :: rest)) : Denotes text idle
  | autoWrap {text rest : Bytes} {load : CommandLoad}
      (h : AfterFiller text (Bytes.ascii 'a' :: rest)) (hload : Load.Denotes rest load) :
      Denotes text (autoWrap load)
  | physical {text rest : Bytes} {command : PhysicalCommand}
      (h : AfterFiller text (Bytes.ascii 'p' :: rest))
      (hcommand : PhysicalCommand.Denotes rest command) : Denotes text (physical command)
  | unknown {text rest : Bytes} (h : AfterFiller text rest)
      (htoken : NoToken ['t', 'w', 's', 'i', 'a', 'p'] rest) : Denotes text unknown

/-- The command for the device is the one that the text denotes. -/
theorem Denotes.ofText_eq {text : Bytes} {command : DeviceCommand} (h : Denotes text command) :
    ofText text = command := by
  cases h with
  | empty h => rw [ofText, afterColon?_of_notMem h]
  | wake h | sleep h | idle h =>
    rw [ofText, h.afterColon?_eq]
    rfl
  | talk h hload =>
    rw [ofText, h.afterColon?_eq]
    exact congrArg DeviceCommand.talk hload.ofCommand?_eq
  | autoWrap h hload =>
    rw [ofText, h.afterColon?_eq]
    exact congrArg DeviceCommand.autoWrap hload.ofCommand?_eq
  | physical h hcommand =>
    rw [ofText, h.afterColon?_eq]
    exact congrArg DeviceCommand.physical hcommand.ofText_eq
  | @unknown rest h htoken =>
    rw [ofText, h.afterColon?_eq]
    cases rest with
    | nil => rfl
    | cons token rest =>
      have hnone := noToken_cons_iff.1 htoken
      simp only [List.forall_mem_cons] at hnone
      simp [hnone]

/-- Every text denotes the command for the device that is found in it. -/
theorem denotes_ofText (text : Bytes) : Denotes text (ofText text) := by
  obtain ⟨hcolon, hafter⟩ | ⟨rest, hrest, hafter⟩ := afterColon?_cases text
  · rw [ofText, hafter]
    exact .empty hcolon
  rw [ofText, hafter]
  cases rest with
  | nil => exact .unknown hrest (noToken_nil _)
  | cons token rest =>
    dsimp only
    split_ifs with ht hw hs hi ha hp
    · exact .talk (ht ▸ hrest) (Load.denotes_ofCommand? rest)
    · exact .wake (hw ▸ hrest)
    · exact .sleep (hs ▸ hrest)
    · exact .idle (hi ▸ hrest)
    · exact .autoWrap (ha ▸ hrest) (Load.denotes_ofCommand? rest)
    · exact .physical (hp ▸ hrest) (PhysicalCommand.denotes_ofText rest)
    · refine .unknown hrest (noToken_cons_iff.2 ?_)
      simp [ht, hw, hs, hi, ha, hp]

end DeviceCommand

namespace BoardCommand

/-- The board command that a line denotes, from its selector on. -/
inductive Denotes : Bytes → BoardCommand → Prop
  | application {text rest : Bytes} {load : CommandLoad}
      (h : AfterFiller text (Bytes.ascii 'a' :: rest)) (hload : Load.Denotes rest load) :
      Denotes text (application load)
  | version {text rest : Bytes} (h : AfterFiller text (Bytes.ascii 'v' :: rest)) :
      Denotes text version
  | firmware {text rest : Bytes} {load : CommandLoad}
      (h : AfterFiller text (Bytes.ascii 'f' :: rest)) (hload : Load.Denotes rest load) :
      Denotes text (firmware load)
  | discover {text rest : Bytes} {load : CommandLoad}
      (h : AfterFiller text (Bytes.ascii 'd' :: rest)) (hload : Load.Denotes rest load) :
      Denotes text (discover load)
  | unseparated {text : Bytes} (h : Bytes.ascii ':' ∉ text) : Denotes text unknown
  | unknown {text rest : Bytes} (h : AfterFiller text rest)
      (htoken : NoToken ['a', 'v', 'f', 'd'] rest) : Denotes text unknown

/-- The command for the board is the one that the text denotes. -/
theorem Denotes.ofText_eq {text : Bytes} {command : BoardCommand} (h : Denotes text command) :
    ofText text = command := by
  cases h with
  | unseparated h => rw [ofText, afterColon?_of_notMem h]
  | version h =>
    rw [ofText, h.afterColon?_eq]
    rfl
  | application h hload =>
    rw [ofText, h.afterColon?_eq]
    exact congrArg BoardCommand.application hload.ofCommand?_eq
  | firmware h hload =>
    rw [ofText, h.afterColon?_eq]
    exact congrArg BoardCommand.firmware hload.ofCommand?_eq
  | discover h hload =>
    rw [ofText, h.afterColon?_eq]
    exact congrArg BoardCommand.discover hload.ofCommand?_eq
  | @unknown rest h htoken =>
    rw [ofText, h.afterColon?_eq]
    cases rest with
    | nil => rfl
    | cons token rest =>
      have hnone := noToken_cons_iff.1 htoken
      simp only [List.forall_mem_cons] at hnone
      simp [hnone]

/-- Every text denotes the command for the board that is found in it. -/
theorem denotes_ofText (text : Bytes) : Denotes text (ofText text) := by
  obtain ⟨hcolon, hafter⟩ | ⟨rest, hrest, hafter⟩ := afterColon?_cases text
  · rw [ofText, hafter]
    exact .unseparated hcolon
  rw [ofText, hafter]
  cases rest with
  | nil => exact .unknown hrest (noToken_nil _)
  | cons token rest =>
    dsimp only
    split_ifs with ha hv hf hd
    · exact .application (ha ▸ hrest) (Load.denotes_ofCommand? rest)
    · exact .version (hv ▸ hrest)
    · exact .firmware (hf ▸ hrest) (Load.denotes_ofCommand? rest)
    · exact .discover (hd ▸ hrest) (Load.denotes_ofCommand? rest)
    · refine .unknown hrest (noToken_cons_iff.2 ?_)
      simp [ha, hv, hf, hd]

end BoardCommand

namespace Request

/-- The request that a line denotes, from its selector on. -/
inductive Selected : Bytes → Request → Prop
  | device {selector : UInt8} {rest : Bytes} {command : DeviceCommand}
      (hselector : selector = Bytes.ascii 's' ∨ selector = Bytes.ascii 'e')
      (hcommand : DeviceCommand.Denotes (selector :: rest) command) :
      Selected (selector :: rest) (device command)
  | board {rest : Bytes} {command : BoardCommand}
      (hcommand : BoardCommand.Denotes (Bytes.ascii 'b' :: rest) command) :
      Selected (Bytes.ascii 'b' :: rest) (board command)
  | unknown {line : Bytes} (hselector : NoToken ['s', 'e', 'b'] line) : Selected line unknown

/-- The request that a line denotes. Once at most, a library name is passed over. -/
inductive Denotes : Bytes → Request → Prop
  | direct {line : Bytes} {request : Request} (hline : NoToken ['l'] line)
      (h : Selected line request) : Denotes line request
  | library {line rest : Bytes} {request : Request}
      (hline : AfterFiller (Bytes.ascii 'l' :: line) rest) (h : Selected rest request) :
      Denotes (Bytes.ascii 'l' :: line) request
  | unseparated {line : Bytes} (h : Bytes.ascii ':' ∉ line) :
      Denotes (Bytes.ascii 'l' :: line) unknown

/-- The request is the one that the first character selects. -/
theorem Selected.ofSelector_eq {line : Bytes} {request : Request} (h : Selected line request) :
    ofSelector line = request := by
  cases h with
  | device hselector hcommand =>
    rw [ofSelector, if_pos hselector, hcommand.ofText_eq]
  | board hcommand =>
    rw [ofSelector, if_neg (by decide), if_pos rfl, hcommand.ofText_eq]
  | unknown hselector =>
    cases line with
    | nil => rfl
    | cons selector rest =>
      have hnone := noToken_cons_iff.1 hselector
      simp only [List.forall_mem_cons] at hnone
      simp [ofSelector, hnone]

/-- Every line selects the request that is found in it. -/
theorem selected_ofSelector (line : Bytes) : Selected line (ofSelector line) := by
  cases line with
  | nil => exact .unknown (noToken_nil _)
  | cons selector rest =>
    rw [ofSelector]
    split_ifs with hdevice hboard
    · exact .device hdevice (DeviceCommand.denotes_ofText _)
    · subst hboard
      exact .board (BoardCommand.denotes_ofText _)
    · refine .unknown (noToken_cons_iff.2 ?_)
      rw [not_or] at hdevice
      simp [hdevice, hboard]

/-- The request is the one that the line denotes. -/
theorem Denotes.ofLine_eq {line : Bytes} {request : Request} (h : Denotes line request) :
    ofLine line = request := by
  cases h with
  | direct hline h =>
    have hhead : line.head? ≠ some (Bytes.ascii 'l') := fun hhead => hline _ hhead (by decide)
    rw [ofLine, if_neg hhead, h.ofSelector_eq]
  | library hline h =>
    rw [ofLine, if_pos List.head?_cons, hline.afterColon?_eq]
    exact h.ofSelector_eq
  | unseparated h =>
    have hcolon : Bytes.ascii ':' ∉ Bytes.ascii 'l' :: _ :=
      List.not_mem_cons_of_ne_of_not_mem (by decide) h
    rw [ofLine, if_pos List.head?_cons, afterColon?_of_notMem hcolon]

/-- Every line denotes the request that is found in it. -/
theorem denotes_ofLine (line : Bytes) : Denotes line (ofLine line) := by
  by_cases hhead : line.head? = some (Bytes.ascii 'l')
  · obtain ⟨rest, rfl⟩ := List.head?_eq_some_iff.1 hhead
    rw [ofLine, if_pos hhead]
    -- the library name is passed over once, so what follows may start with the same letter
    obtain ⟨hcolon, hafter⟩ | ⟨rest', hrest, hafter⟩ := afterColon?_cases (Bytes.ascii 'l' :: rest)
    · rw [hafter]
      exact .unseparated fun h => hcolon (List.mem_cons_of_mem _ h)
    · rw [hafter]
      exact .library hrest (selected_ofSelector rest')
  · rw [ofLine, if_neg hhead]
    refine .direct ?_ (selected_ofSelector line)
    intro token htoken hmem
    rw [List.map_singleton, List.mem_singleton] at hmem
    exact hhead (hmem ▸ htoken)

/-- Reading a line finds exactly what the line denotes. -/
theorem ofLine_eq_iff (line : Bytes) (request : Request) :
    ofLine line = request ↔ Denotes line request := by
  constructor
  · rintro rfl
    exact denotes_ofLine line
  · exact Denotes.ofLine_eq

/-- A line that ends in a load between parentheses is read with the load. -/
theorem ofReceived_enclosed {front load : Bytes} {request : Request}
    (hfront : front.map lowerCase = front)
    (hdenotes : ∀ text, Load.Denotes text (some load) → Denotes (front ++ text) request) :
    ofReceived (front ++ Frame.opening :: (Hex.encode load ++ [Frame.closing])) = request := by
  let enclosed (digits : Bytes) : Bytes := Frame.opening :: (digits ++ [Frame.closing])
  have hunterminated : withoutTerminator (front ++ enclosed (Hex.encode load)) =
      front ++ enclosed (Hex.encode load) := by
    refine if_neg ?_
    have hlast : front ++ enclosed (Hex.encode load) =
        front ++ Frame.opening :: Hex.encode load ++ [Frame.closing] := by
      simp [enclosed]
    rw [hlast, List.getLast?_concat]
    decide
  have hlower : (front ++ enclosed (Hex.encode load)).map lowerCase =
      front ++ enclosed ((Hex.encode load).map lowerCase) := by
    rw [List.map_append, hfront, List.map_cons, List.map_append]
    rfl
  have hshows := Hex.shows_decode ((Hex.encode load).map lowerCase)
  rw [Hex.decode_map_lowerCase_encode] at hshows
  have hload : Load.Denotes ([] ++ enclosed ((Hex.encode load).map lowerCase)) (some load) :=
    .closed List.not_mem_nil (Hex.closing_notMem_map_lowerCase_encode load) hshows
  rw [ofReceived, hunterminated, hlower]
  exact (hdenotes _ hload).ofLine_eq

example : ofLine (Bytes.ofText "lib:ecc:physical:s(c0g") =
    .device (.physical (.select (some []))) := by decide

end Request

end SecureKit

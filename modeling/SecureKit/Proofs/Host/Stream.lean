import Mathlib.Data.List.TakeDrop
import Mathlib.Data.List.TakeWhile
import SecureKit.Host.Line
import SecureKit.Proofs.Protocol.Load

/-!
# The Stream of Host Lines

The reports of the host make up a stream: of each report what comes up to its first terminator, for
the rest of a terminated report is padding. The lines are the terminated pieces of the stream.

* `Pieces.splitOn_eq` — a stream is cut into pieces in one way only.
* `LineAssembler.report_open`, `LineAssembler.report_terminated` — what a report does, with its part
  of the stream.
-/

namespace SecureKit

/-- A stream is cut after each of its terminators: into lines, which are given without their
terminators, and a rest without a terminator. -/
structure Pieces (stream : Bytes) (lines : List Bytes) (rest : Bytes) : Prop where
  /-- Nothing is lost, added or moved. -/
  stream_eq : stream = (lines.map (· ++ [Frame.terminator])).flatten ++ rest
  /-- There is a cut after every terminator. -/
  lines_notMem : ∀ line ∈ lines, Frame.terminator ∉ line
  /-- Nothing is cut but after a terminator. -/
  rest_notMem : Frame.terminator ∉ rest

namespace Pieces

variable {stream rest : Bytes} {lines : List Bytes}

theorem nil : Pieces [] [] [] := ⟨rfl, nofun, List.not_mem_nil⟩

/-- The pieces are those that splitting the stream at its terminators gives. -/
theorem splitOn_eq (h : Pieces stream lines rest) :
    stream.splitOn Frame.terminator = lines ++ [rest] := by
  obtain ⟨rfl, hlines, hrest⟩ := h
  induction lines with
  | nil => exact List.splitOn_eq_singleton hrest
  | cons line lines ih =>
    obtain ⟨hline, hlines⟩ := List.forall_mem_cons.1 hlines
    have hstream : ((line :: lines).map (· ++ [Frame.terminator])).flatten ++ rest =
        line ++ Frame.terminator :: ((lines.map (· ++ [Frame.terminator])).flatten ++ rest) := by
      simp
    rw [hstream, List.splitOn_append_cons_self_of_not_mem hline, ih hlines]
    rfl

/-- Bytes without a terminator lengthen the rest. -/
theorem append (h : Pieces stream lines rest) {bytes : Bytes} (hbytes : Frame.terminator ∉ bytes) :
    Pieces (stream ++ bytes) lines (rest ++ bytes) where
  stream_eq := by rw [h.stream_eq, List.append_assoc]
  lines_notMem := h.lines_notMem
  rest_notMem := by
    rw [List.mem_append, not_or]
    exact ⟨h.rest_notMem, hbytes⟩

/-- A terminator makes the rest a line. -/
theorem terminate (h : Pieces stream lines rest) :
    Pieces (stream ++ [Frame.terminator]) (lines ++ [rest]) [] where
  stream_eq := by simp [h.stream_eq]
  lines_notMem := by
    intro line hline
    rcases List.mem_append.1 hline with hline | hline
    · exact h.lines_notMem line hline
    · rw [List.mem_singleton.1 hline]
      exact h.rest_notMem
  rest_notMem := List.not_mem_nil

end Pieces

namespace ReceivedLine

/-- The line that is kept of what the host has sent: its start, with a flag if that is not all. -/
def ofContent (content : Bytes) : ReceivedLine where
  data := content.take dataMax
  overflow := dataMax < content.length

/-- It does not matter in how many parts a line arrives. -/
theorem append_append (line : ReceivedLine) (bytes bytes' : Bytes) :
    (line.append bytes).append bytes' = line.append (bytes ++ bytes') := by
  have hdata : ((line.data ++ bytes).take dataMax ++ bytes').take dataMax =
      (line.data ++ (bytes ++ bytes')).take dataMax := by
    rw [← List.append_assoc, List.take_append, @List.take_append _ (line.data ++ bytes),
      List.take_take, Nat.min_self, List.length_take]
    congr 2
    omega
  -- bytes that did not fit stay counted: the line was full then, and is full since
  have hoverflow : (dataMax < line.data.length + bytes.length ∨
      dataMax < min dataMax (line.data.length + bytes.length) + bytes'.length) ↔
      dataMax < line.data.length + (bytes.length + bytes'.length) := by
    omega
  simp [append, hdata, Bool.or_assoc, ← Bool.decide_or, hoverflow]

/-- A line that is received in parts is kept as if it had come at once. -/
theorem append_ofContent (content bytes : Bytes) :
    (ofContent content).append bytes = ofContent (content ++ bytes) := by
  have hempty : ∀ content, ofContent content = empty.append content := by
    intro content
    simp [ofContent, append, empty]
  rw [hempty, append_append, hempty]

/-- A line holds no bytes but those of its content. -/
theorem notMem_data_ofContent {content : Bytes} {c : UInt8} (h : c ∉ content) :
    c ∉ (ofContent content).data := fun hc => h (List.mem_of_mem_take hc)

end ReceivedLine

namespace LineAssembler

/-- The part of a report that belongs to the stream: up to its first terminator, which is part of
it, or all of a report without one. -/
def streamed (report : Bytes) : Bytes := report.take (report.idxOf Frame.terminator + 1)

/-- A report without a terminator belongs to the stream as a whole. -/
theorem streamed_open {report : Bytes} (h : Frame.terminator ∉ report) :
    streamed report = report := by
  rw [streamed, List.idxOf_eq_length h, List.take_of_length_le (Nat.le_succ _)]

/-- What comes after the terminator in a report is padding. -/
theorem streamed_terminated {content : Bytes} (h : Frame.terminator ∉ content) (padding : Bytes) :
    streamed (content ++ Frame.terminator :: padding) = content ++ [Frame.terminator] := by
  have hplace : (content ++ Frame.terminator :: padding).idxOf Frame.terminator =
      content.length := by
    rw [List.idxOf_append, if_neg h]
    simp
  rw [streamed, hplace, List.take_length_add_append]
  rfl

variable (assembler : LineAssembler) (queue : LineQueue)

/-- A report without a terminator goes on with the line. -/
theorem report_open {data : Bytes} (h : Frame.terminator ∉ data) :
    assembler.report queue data =
      (false, { assembler with line := assembler.line.append data }, queue) := by
  have hall := Bytes.ne_of_not_mem h
  rw [report, List.span_eq_takeWhile_dropWhile, List.takeWhile_eq_self_iff.2 hall,
    List.dropWhile_eq_nil_iff.2 hall]

/-- A report with a terminator finishes the line, and what follows the terminator is ignored. -/
theorem report_terminated {content : Bytes} (h : Frame.terminator ∉ content) (padding : Bytes) :
    assembler.report queue (content ++ Frame.terminator :: padding) =
      (true, finish { assembler with line := assembler.line.append content } queue) := by
  have hall := Bytes.ne_of_not_mem h
  rw [report, List.span_eq_takeWhile_dropWhile, List.takeWhile_append_of_pos hall,
    List.dropWhile_append_of_pos hall]
  simp

end LineAssembler

end SecureKit

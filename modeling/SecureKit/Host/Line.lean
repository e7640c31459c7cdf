import SecureKit.Protocol.Frame

/-!
# Host Lines

The host sends its command lines in reports of any length. A `LineAssembler` joins the reports up to
a terminator and puts the finished line into a queue of bounded size; what follows the terminator in
a report is padding. A line that is too long is cut and flagged, and a line for which the queue has
no room is dropped and counted.
-/

namespace SecureKit

/-- A command line as it was received, or the part of it received so far. -/
structure ReceivedLine where
  /-- The start of the line, without its terminator. -/
  data : Bytes
  /-- Whether the line had more bytes than were kept. -/
  overflow : Bool
  deriving DecidableEq

namespace ReceivedLine

/-- The number of bytes kept of a line. -/
def dataMax : Nat := 1024

/-- The line of which nothing was received. -/
def empty : ReceivedLine where
  data := []
  overflow := false

/-- The line after more bytes were received. -/
def append (line : ReceivedLine) (bytes : Bytes) : ReceivedLine where
  data := (line.data ++ bytes).take dataMax
  overflow := line.overflow || dataMax < line.data.length + bytes.length

/-- Never more than `dataMax` bytes are kept. -/
theorem length_append_le (line : ReceivedLine) (bytes : Bytes) :
    (line.append bytes).data.length ≤ dataMax := by
  rw [append]
  exact List.length_take_le dataMax _

end ReceivedLine

/-- A queue of finished lines. -/
structure LineQueue where
  /-- The lines, oldest first. -/
  lines : List ReceivedLine
  /-- The number of lines the queue can hold. -/
  capacity : Nat
  deriving DecidableEq

namespace LineQueue

/-- The empty queue of `slots` slots, one of which always stays free. -/
def new (slots : Nat) : LineQueue where
  lines := []
  capacity := slots - 1

/-- Put a line at the end, if there is room. -/
def enqueue? (queue : LineQueue) (line : ReceivedLine) : Option LineQueue :=
  if queue.lines.length < queue.capacity then
    some { queue with lines := queue.lines ++ [line] }
  else none

/-- Take the oldest line, if there is one. -/
def dequeue? (queue : LineQueue) : Option (ReceivedLine × LineQueue) :=
  match queue.lines with
  | [] => none
  | line :: rest => some (line, { queue with lines := rest })

/-- A line is accepted exactly if there is room, and then comes last. -/
theorem enqueue?_eq_some_iff {queue queue' : LineQueue} {line : ReceivedLine} :
    queue.enqueue? line = some queue' ↔
      queue.lines.length < queue.capacity ∧
        queue' = { queue with lines := queue.lines ++ [line] } := by
  simp [enqueue?, eq_comm]

end LineQueue

/-- Joins reports into lines. -/
structure LineAssembler where
  /-- The line received so far. -/
  line : ReceivedLine
  /-- The number of finished lines that were dropped. -/
  dropped : UInt32

namespace LineAssembler

/-- The assembler that has received nothing. -/
def new : LineAssembler where
  line := .empty
  dropped := 0

/-- Hand the finished line to the queue and start a new one. -/
def finish (assembler : LineAssembler) (queue : LineQueue) : LineAssembler × LineQueue :=
  match queue.enqueue? assembler.line with
  | some queue => ({ assembler with line := .empty }, queue)
  | none => ({ line := .empty, dropped := assembler.dropped + 1 }, queue)

/-- Take in a report. Also returns whether it finished a line. -/
def report (assembler : LineAssembler) (queue : LineQueue) (data : Bytes) :
    Bool × LineAssembler × LineQueue :=
  let (content, rest) := data.span (· ≠ Frame.terminator)
  let assembler := { assembler with line := assembler.line.append content }
  match rest with
  | [] => (false, assembler, queue)
  | _ :: _ => (true, assembler.finish queue)

end LineAssembler

end SecureKit

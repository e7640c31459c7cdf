import Mathlib.Tactic.SplitIfs
import SecureKit.Proofs.Host.Stream

/-!
# Lines on Their Way In

The link of the host delivers reports at any time, and the main loop takes finished lines out of the
queue at any time. An `Inbox` is what one gets from any order of the two, with a log of them.

* `Inbox.Accounted` — every line that the host has completed is either queued in its turn or
  dropped, and what is in the assembler is the start of the next one.
* `Inbox.lines_accounted` — it is so in every run, however the host cuts its stream into reports.
-/

namespace SecureKit

/-- What may happen to an inbox. -/
inductive Inbox.Action where
  /-- The host sends a report. -/
  | report (data : Bytes)
  /-- The oldest line is taken out of the queue, if there is one. -/
  | dequeue

/-- What has happened to an inbox. -/
inductive Inbox.Entry where
  /-- A report has arrived while a number of lines were queued, and has finished a line or not. -/
  | report (data : Bytes) (queued : Nat) (finished : Bool)
  /-- A line was taken out of the queue, or there was none. -/
  | dequeue (line : Option ReceivedLine)

/-- The receiving end of the host link. -/
structure Inbox where
  /-- Joins the reports. -/
  assembler : LineAssembler
  /-- The finished lines. -/
  queue : LineQueue
  /-- What has happened so far, the earliest first. -/
  log : List Inbox.Entry

namespace Inbox

/-- An inbox that has received nothing, with a queue of `slots` slots. -/
def new (slots : Nat) : Inbox where
  assembler := .new
  queue := .new slots
  log := []

/-- The inbox after an action. -/
def act (inbox : Inbox) : Action → Inbox
  | .report data =>
    let (finished, assembler, queue) := inbox.assembler.report inbox.queue data
    { assembler, queue, log := inbox.log ++ [.report data inbox.queue.lines.length finished] }
  | .dequeue =>
    match inbox.queue.dequeue? with
    | none => { inbox with log := inbox.log ++ [.dequeue none] }
    | some (line, queue) => { inbox with queue, log := inbox.log ++ [.dequeue (some line)] }

/-- The inbox after a sequence of actions. -/
def run (inbox : Inbox) (actions : List Action) : Inbox := actions.foldl act inbox

/-- The stream of the host in a log. -/
def stream (log : List Entry) : Bytes :=
  log.flatMap fun
    | .report data _ _ => LineAssembler.streamed data
    | .dequeue _ => []

/-- The lines taken out of the queue in a log. -/
def delivered (log : List Entry) : List ReceivedLine :=
  log.filterMap fun
    | .report _ _ _ => none
    | .dequeue line => line

/-- How many lines were queued at each terminator of the stream. -/
def occupancies (log : List Entry) : List Nat :=
  log.filterMap fun
    | .report data queued _ => if Frame.terminator ∈ data then some queued else none
    | .dequeue _ => none

/-- A line that the host has completed. -/
structure Arrival where
  /-- The line as it was sent, without its terminator. -/
  content : Bytes
  /-- How many lines were queued when it was completed. -/
  queued : Nat

/-- The lines that find room in a queue of `capacity` lines, as they are kept. -/
def accepted (capacity : Nat) (arrivals : List Arrival) : List ReceivedLine :=
  (arrivals.filter (·.queued < capacity)).map fun arrival => .ofContent arrival.content

/-- The number of lines that find no room. -/
def rejected (capacity : Nat) (arrivals : List Arrival) : Nat :=
  arrivals.countP (capacity ≤ ·.queued)

/-- An inbox with a queue of `capacity` lines is accounted for by the lines completed so far and the
rest of the stream. -/
structure Accounted (capacity : Nat) (inbox : Inbox) (arrivals : List Arrival) (rest : Bytes) :
    Prop where
  /-- The lines are the terminated pieces of the stream. -/
  pieces : Pieces (stream inbox.log) (arrivals.map Arrival.content) rest
  /-- Each of them was completed with as many lines in the queue as the log says. -/
  occupancies_eq : occupancies inbox.log = arrivals.map Arrival.queued
  /-- Those that found room were delivered or are still queued, in their order. -/
  delivered_append : delivered inbox.log ++ inbox.queue.lines = accepted capacity arrivals
  /-- The others were counted, in 32 bits. -/
  dropped_eq : inbox.assembler.dropped.toNat = rejected capacity arrivals % UInt32.size
  /-- The assembler holds what is kept of the rest. -/
  line_eq : inbox.assembler.line = .ofContent rest
  /-- The queue holds as many lines as ever. -/
  capacity_eq : inbox.queue.capacity = capacity
  /-- A report was said to finish a line exactly if it has a terminator. -/
  finished_iff : ∀ data queued finished, .report data queued finished ∈ inbox.log →
    (finished = true ↔ Frame.terminator ∈ data)

variable {capacity : Nat} {inbox : Inbox} {arrivals : List Arrival} {rest : Bytes}

@[simp]
theorem stream_append (log log' : List Entry) : stream (log ++ log') = stream log ++ stream log' :=
  List.flatMap_append

@[simp]
theorem delivered_append (log log' : List Entry) :
    delivered (log ++ log') = delivered log ++ delivered log' := List.filterMap_append

@[simp]
theorem delivered_report (data : Bytes) (queued : Nat) (finished : Bool) :
    delivered [.report data queued finished] = [] := rfl

@[simp]
theorem delivered_dequeue (line : Option ReceivedLine) :
    delivered [.dequeue line] = line.toList := by
  cases line <;> rfl

@[simp]
theorem occupancies_append (log log' : List Entry) :
    occupancies (log ++ log') = occupancies log ++ occupancies log' := List.filterMap_append

/-- A line that arrives at a queue with room is accepted, behind those before it. -/
theorem accepted_concat (arrivals : List Arrival) (arrival : Arrival) :
    accepted capacity (arrivals ++ [arrival]) = accepted capacity arrivals ++
      if arrival.queued < capacity then [.ofContent arrival.content] else [] := by
  by_cases h : arrival.queued < capacity <;> simp [accepted, h]

/-- A line that arrives at a full queue is one more that is dropped. -/
theorem rejected_concat (arrivals : List Arrival) (arrival : Arrival) :
    rejected capacity (arrivals ++ [arrival]) = rejected capacity arrivals +
      if arrival.queued < capacity then 0 else 1 := by
  by_cases h : arrival.queued < capacity <;> simp [rejected, h, Nat.not_le.2, Nat.le_of_not_lt]

/-- A new inbox has received nothing. -/
theorem accounted_new (slots : Nat) : (new slots).Accounted (slots - 1) [] [] where
  pieces := .nil
  occupancies_eq := rfl
  delivered_append := rfl
  dropped_eq := rfl
  line_eq := rfl
  capacity_eq := rfl
  finished_iff := nofun

/-- A report without a terminator goes on with the line. -/
theorem act_report_open {data : Bytes} (h : Frame.terminator ∉ data) :
    inbox.act (.report data) =
      { inbox with
        assembler := { inbox.assembler with line := inbox.assembler.line.append data }
        log := inbox.log ++ [.report data inbox.queue.lines.length false] } := by
  rw [act, LineAssembler.report_open _ _ h]

/-- A report with a terminator completes a line for which there is room, or not. -/
theorem act_report_terminated {content : Bytes} (h : Frame.terminator ∉ content)
    (padding : Bytes) :
    inbox.act (.report (content ++ Frame.terminator :: padding)) =
      let line := inbox.assembler.line.append content
      let log := inbox.log ++ [.report (content ++ Frame.terminator :: padding)
        inbox.queue.lines.length true]
      if inbox.queue.lines.length < inbox.queue.capacity then
        { assembler := { inbox.assembler with line := .empty }
          queue := { inbox.queue with lines := inbox.queue.lines ++ [line] }
          log }
      else
        { assembler := { line := .empty, dropped := inbox.assembler.dropped + 1 }
          queue := inbox.queue
          log } := by
  rw [act, LineAssembler.report_terminated _ _ h, LineAssembler.finish, LineQueue.enqueue?]
  by_cases hroom : inbox.queue.lines.length < inbox.queue.capacity
  · simp only [hroom, if_true]
  · simp only [hroom, if_false]

/-- The next report in a log is said to finish a line exactly if it has a terminator. -/
theorem Accounted.finished_iff_concat (h : inbox.Accounted capacity arrivals rest) {data : Bytes}
    (queued : Nat) {finished : Bool} (hfinished : finished = true ↔ Frame.terminator ∈ data) :
    ∀ data' queued' finished',
      .report data' queued' finished' ∈ inbox.log ++ [.report data queued finished] →
        (finished' = true ↔ Frame.terminator ∈ data') := by
  intro data' queued' finished' hmem
  rcases List.mem_append.1 hmem with hmem | hmem
  · exact h.finished_iff _ _ _ hmem
  · obtain ⟨rfl, -, rfl⟩ := Entry.report.inj (List.mem_singleton.1 hmem)
    exact hfinished

/-- A report without the end of a line goes on with the line that is being received. -/
theorem accounted_report_open (h : inbox.Accounted capacity arrivals rest) {data : Bytes}
    (hdata : Frame.terminator ∉ data) :
    (inbox.act (.report data)).Accounted capacity arrivals (rest ++ data) := by
  rw [act_report_open hdata]
  constructor
  · simpa [stream, LineAssembler.streamed_open hdata] using h.pieces.append hdata
  · simpa [occupancies, hdata] using h.occupancies_eq
  · simpa using h.delivered_append
  · exact h.dropped_eq
  · show inbox.assembler.line.append data = _
    rw [h.line_eq, ReceivedLine.append_ofContent]
  · exact h.capacity_eq
  · exact h.finished_iff_concat _ (by simp [hdata])

/-- A terminated report completes the line in the assembler, with the number of lines that are
queued then. -/
theorem accounted_report_terminated (h : inbox.Accounted capacity arrivals rest) {content : Bytes}
    (hcontent : Frame.terminator ∉ content) (padding : Bytes) :
    (inbox.act (.report (content ++ Frame.terminator :: padding))).Accounted capacity
      (arrivals ++ [⟨rest ++ content, inbox.queue.lines.length⟩]) [] := by
  let data := content ++ Frame.terminator :: padding
  let arrival : Arrival := ⟨rest ++ content, inbox.queue.lines.length⟩
  let log := inbox.log ++ [.report data inbox.queue.lines.length true]
  have hdata : Frame.terminator ∈ data := by simp [data]
  have hline : inbox.assembler.line.append content = .ofContent arrival.content := by
    rw [h.line_eq, ReceivedLine.append_ofContent]
  -- the log is the same whether there is room for the line or not
  have hpieces : Pieces (stream log) ((arrivals ++ [arrival]).map Arrival.content) [] := by
    have hstream : stream log = stream inbox.log ++ content ++ [Frame.terminator] := by
      simp [log, stream, data, LineAssembler.streamed_terminated hcontent]
    rw [hstream, List.map_append]
    exact (h.pieces.append hcontent).terminate
  have hoccupancies : occupancies log = (arrivals ++ [arrival]).map Arrival.queued := by
    rw [List.map_append, ← h.occupancies_eq]
    simp [log, occupancies, hdata, arrival]
  have hdelivered : delivered log = delivered inbox.log := by simp [log]
  have hfinished := h.finished_iff_concat inbox.queue.lines.length (iff_of_true rfl hdata)
  rw [act_report_terminated hcontent, hline]
  by_cases hroom : inbox.queue.lines.length < inbox.queue.capacity
  · have hroom' : arrival.queued < capacity := h.capacity_eq ▸ hroom
    simp only [if_pos hroom]
    refine ⟨hpieces, hoccupancies, ?_, ?_, rfl, h.capacity_eq, hfinished⟩
    · rw [hdelivered, accepted_concat, if_pos hroom', ← h.delivered_append, List.append_assoc]
    · rw [rejected_concat, if_pos hroom']
      exact h.dropped_eq
  · have hroom' : ¬arrival.queued < capacity := h.capacity_eq ▸ hroom
    simp only [if_neg hroom]
    refine ⟨hpieces, hoccupancies, ?_, ?_, rfl, h.capacity_eq, hfinished⟩
    · rw [hdelivered, accepted_concat, if_neg hroom', List.append_nil, h.delivered_append]
    · -- the counter starts over after its largest number
      rw [rejected_concat, if_neg hroom', UInt32.toNat_add, h.dropped_eq]
      exact Nat.mod_add_mod _ _ _

/-- Taking out a line delivers it and changes nothing about what has arrived. -/
theorem accounted_dequeue (h : inbox.Accounted capacity arrivals rest) :
    (inbox.act .dequeue).Accounted capacity arrivals rest := by
  have hpieces : ∀ line, Pieces (stream (inbox.log ++ [.dequeue line]))
      (arrivals.map Arrival.content) rest := by
    intro line
    simpa [stream] using h.pieces
  have hoccupancies : ∀ line, occupancies (inbox.log ++ [.dequeue line]) =
      arrivals.map Arrival.queued := by
    intro line
    simpa [occupancies] using h.occupancies_eq
  have hfinished : ∀ line data queued finished,
      .report data queued finished ∈ inbox.log ++ [.dequeue line] →
        (finished = true ↔ Frame.terminator ∈ data) := by
    intro line data queued finished hmem
    exact h.finished_iff _ _ _ (by simpa using hmem)
  have hdelivered := h.delivered_append
  rw [act, LineQueue.dequeue?]
  cases hlines : inbox.queue.lines with
  | nil =>
    refine ⟨hpieces _, hoccupancies _, ?_, h.dropped_eq, h.line_eq, h.capacity_eq, hfinished _⟩
    simpa using hdelivered
  | cons line lines =>
    -- the oldest line moves from the queue to those that were delivered
    refine ⟨hpieces _, hoccupancies _, ?_, h.dropped_eq, h.line_eq, h.capacity_eq, hfinished _⟩
    rw [hlines] at hdelivered
    simpa using hdelivered

/-- Whatever happens, the inbox stays accounted for. -/
theorem Accounted.act (h : inbox.Accounted capacity arrivals rest) (action : Action) :
    ∃ arrivals' rest', (inbox.act action).Accounted capacity arrivals' rest' := by
  cases action with
  | dequeue => exact ⟨_, _, accounted_dequeue h⟩
  | report data =>
    by_cases hdata : Frame.terminator ∈ data
    · obtain ⟨content, padding, rfl, hcontent⟩ := List.eq_append_cons_of_mem hdata
      exact ⟨_, _, accounted_report_terminated h hcontent padding⟩
    · exact ⟨_, _, accounted_report_open h hdata⟩

/-- The inbox is accounted for after every run. -/
theorem accounted_run (slots : Nat) (actions : List Action) :
    ∃ arrivals rest, ((new slots).run actions).Accounted (slots - 1) arrivals rest := by
  refine List.foldlRecOn
    (motive := fun inbox => ∃ arrivals rest, inbox.Accounted (slots - 1) arrivals rest)
    actions act ⟨[], [], accounted_new slots⟩ ?_
  rintro inbox ⟨arrivals, rest, h⟩ action -
  exact h.act action

/-- A report may as well arrive in two parts, as long as the first part does not finish the line. -/
theorem act_report_append (inbox : Inbox) {front : Bytes} (hfront : Frame.terminator ∉ front)
    (back : Bytes) :
    let parts := (inbox.act (.report front)).act (.report back)
    let whole := inbox.act (.report (front ++ back))
    parts.assembler = whole.assembler ∧ parts.queue = whole.queue := by
  intro parts whole
  -- the first part only lengthens the line, so the terminator is that of the second part
  by_cases hback : Frame.terminator ∈ back
  · obtain ⟨content, padding, rfl, hcontent⟩ := List.eq_append_cons_of_mem hback
    have hwhole : Frame.terminator ∉ front ++ content := by
      rw [List.mem_append, not_or]
      exact ⟨hfront, hcontent⟩
    simp only [parts, whole, act_report_open hfront, act_report_terminated hcontent,
      ← List.append_assoc, act_report_terminated hwhole, ReceivedLine.append_append]
    split_ifs <;> exact ⟨rfl, rfl⟩
  · have hwhole : Frame.terminator ∉ front ++ back := by
      rw [List.mem_append, not_or]
      exact ⟨hfront, hback⟩
    simp only [parts, whole, act_report_open hfront, act_report_open hback, act_report_open hwhole,
      ReceivedLine.append_append, and_self]

/-- Nothing of what the host sends is lost, merged or doubled: in every run the inbox is accounted
for by the lines that were completed and the rest of the stream. How a line is cut into reports does
not matter. -/
theorem lines_accounted (slots : Nat) (actions : List Action) :
    let inbox := (new slots).run actions
    (∃ arrivals rest, inbox.Accounted (slots - 1) arrivals rest) ∧
    ∀ front back, Frame.terminator ∉ front →
      let parts := (inbox.act (.report front)).act (.report back)
      let whole := inbox.act (.report (front ++ back))
      parts.assembler = whole.assembler ∧ parts.queue = whole.queue := by
  intro inbox
  exact ⟨accounted_run slots actions, fun front back hfront => act_report_append inbox hfront back⟩

end Inbox

end SecureKit

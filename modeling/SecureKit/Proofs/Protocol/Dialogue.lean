import SecureKit.Proofs.Host.Inbox
import SecureKit.Proofs.Host.Report
import SecureKit.Proofs.Protocol.Dispatch
import SecureKit.Proofs.Protocol.Response
import SecureKit.Proofs.Protocol.Tunnel

/-!
# The Dialogue with the Host

The host sends reports at any time, and the engine takes the lines out of the queue one by one and
sends its responses. A `Turn` is one look of the engine into the queue; a `Dialogue` is what one
gets from any order of reports and turns.

* `Turn.reports_events` — what a turn sends is the response to its line.
* `Turn.Orderly` — a turn takes one line, the oldest, if there is one.
* `Dialogue.lines_answered` — the host can tell the responses apart, and gets one for each line that
  was accepted and taken, in the order of the lines.
-/

namespace SecureKit

open Program

/-- A look of the engine into the queue, with all as it was then. -/
structure Turn (σ : Type) where
  engine : Engine
  queue : LineQueue
  peripherals : σ

namespace Engine

/-- A line is answered by the engine with the lock taken, and the answer is sent. -/
theorem poll_cons (engine : Engine) (line : ReceivedLine) (waiting : List ReceivedLine)
    (capacity : Nat) :
    engine.poll ⟨line :: waiting, capacity⟩ = (do
      let response ← { engine with lock := engine.lock.arm kitHoldoff }.respond line
      let _ ← Report.send (shown response)
      return (true, response.2, ⟨waiting, capacity⟩)) := rfl

end Engine

namespace Turn

variable {σ : Type} (environment : Environment σ) (turn : Turn σ)

/-- The line in turn, if there is one. -/
def line? : Option ReceivedLine := turn.queue.lines.head?

/-- What has come of the turn. -/
def result : (Bool × Engine × LineQueue) × σ :=
  (turn.engine.poll turn.queue).run environment turn.peripherals

/-- The calls of the turn. -/
def events : List Event := (turn.engine.poll turn.queue).trace environment turn.peripherals

/-- Whether the engine has said that there was a line. -/
def answered : Bool := (turn.result environment).1.1

/-- The response that the line in turn calls for: a status for a line that was too long, and what
the engine makes of the line otherwise. -/
def response? : Option Bytes :=
  turn.line?.map fun line =>
    if line.overflow then Bytes.ofText "C1()\n"
    else ((turn.engine.process line.data).run environment turn.peripherals).1.1

/-- A turn deals with the line in turn and leaves the others alone. -/
structure Orderly : Prop where
  /-- There was a line exactly if the engine says so. -/
  answered_iff : turn.answered environment = true ↔ turn.queue.lines ≠ []
  /-- The line in turn is taken, and no other. -/
  lines_eq : (turn.result environment).1.2.2.lines = turn.queue.lines.tail
  /-- A line that was too long is not carried out. -/
  overflow : ∀ line ∈ turn.line?, line.overflow = true →
    ∀ event ∈ turn.events environment, Report.Delivers event.call
  /-- For any other line it does not matter that its terminator was taken off. -/
  terminated : ∀ line ∈ turn.line?, line.overflow = false →
    turn.engine.process (line.data ++ [Frame.terminator]) = turn.engine.process line.data

/-- With the kit lock taken, the engine makes the same of a line. -/
theorem shown_respond_withLock (engine : Engine) (lock : Holdoff) (line : ReceivedLine)
    (state : σ) :
    Engine.shown (({ engine with lock }.respond line).run environment state).1 =
      if line.overflow then Bytes.ofText "C1()\n"
      else ((engine.process line.data).run environment state).1.1 := by
  rw [Engine.respond]
  by_cases h : line.overflow = true
  · rw [if_pos h, if_pos h]
    exact (Engine.shown_respondStatus _ .rxOverflow).trans (by decide)
  · rw [if_neg h, if_neg h, Engine.dispatch_withLock, Engine.process, run_bind, run_bind]
    rfl

/-- With lines waiting the first of them is answered. -/
theorem result_of_cons {line : ReceivedLine} {waiting : List ReceivedLine}
    (h : turn.queue.lines = line :: waiting) :
    (turn.result environment).1.1 = true ∧
      (turn.result environment).1.2.2 = { turn.queue with lines := waiting } :=
  (turn.engine.queue_poll h).run environment turn.peripherals

/-- Without a line nothing happens. -/
theorem result_of_nil (h : turn.queue.lines = []) :
    turn.result environment = ((false, turn.engine, turn.queue), turn.peripherals) := by
  rw [result, Engine.poll, LineQueue.dequeue?, h]
  rfl

/-- A turn takes the line in turn out of the queue. -/
theorem lines_result :
    (turn.result environment).1.2.2 = { turn.queue with lines := turn.queue.lines.tail } := by
  cases h : turn.queue.lines with
  | nil =>
    rw [turn.result_of_nil environment h, List.tail_nil, ← h]
  | cons line waiting => exact (turn.result_of_cons environment h).2

/-- A turn answers a line exactly if one is waiting. -/
theorem answered_iff : turn.answered environment = true ↔ turn.queue.lines ≠ [] := by
  rw [answered]
  cases h : turn.queue.lines with
  | nil => simp [turn.result_of_nil environment h]
  | cons line waiting => simp [(turn.result_of_cons environment h).1]

/-- Only the response to a line goes to the host. -/
theorem reports_respond (engine : Engine) (line : ReceivedLine) (state : σ) :
    reports ((engine.respond line).trace environment state) = [] := by
  rw [reports, List.filterMap_eq_nil_iff]
  intro event hevent
  have hcall := (engine.callsOnly_respond line).of_mem_trace environment state event hevent
  obtain ⟨request, reply⟩ := event
  cases request <;> first | rfl | exact hcall.elim

variable {environment}

/-- The reports of a turn are those of the response to its line. -/
theorem reports_events (haccepts : environment.AcceptsReports) :
    reports (turn.events environment) =
      (turn.response? environment).elim [] Report.ofResponse := by
  obtain ⟨engine, ⟨lines, capacity⟩, peripherals⟩ := turn
  cases lines with
  | nil => rfl
  | cons line waiting =>
    -- first the line is carried out, then the response is sent
    rw [events, Engine.poll_cons, trace_bind, trace_bind, reports_append, reports_append,
      reports_respond, Report.reports_trace_send haccepts, shown_respond_withLock]
    simp [reports, response?, line?]

/-- Every response of a turn has the shape of one. -/
theorem isResponse_of_response? {response : Bytes}
    (h : turn.response? environment = some response) : IsResponse response := by
  obtain ⟨line, -, rfl⟩ := Option.map_eq_some_iff.1 h
  -- the engine gives the same response with the lock as it was
  rw [← shown_respond_withLock environment turn.engine turn.engine.lock line]
  exact (Engine.isResponse_respond turn.engine line).run environment turn.peripherals

/-- A line that was too long makes no call but those of sending the response. -/
theorem delivers_of_overflow {line : ReceivedLine} (h : turn.line? = some line)
    (hoverflow : line.overflow = true) :
    ∀ event ∈ turn.events environment, Report.Delivers event.call := by
  obtain ⟨engine, ⟨lines, capacity⟩, peripherals⟩ := turn
  obtain ⟨waiting, rfl⟩ : ∃ waiting, lines = line :: waiting := List.head?_eq_some_iff.1 h
  refine CallsOnly.of_mem_trace ?_ environment peripherals
  rw [Engine.poll_cons, Engine.respond, if_pos hoverflow]
  exact (Report.callsOnly_send _).bind fun _ => trivial

/-- A turn is orderly if its line has no terminator. -/
theorem orderly (hline : ∀ line ∈ turn.line?, Frame.terminator ∉ line.data) :
    turn.Orderly environment where
  answered_iff := turn.answered_iff environment
  lines_eq := by rw [lines_result]
  overflow := fun _ h hoverflow => turn.delivers_of_overflow h hoverflow
  terminated := by
    intro line h _
    have hlast : line.data.getLast? ≠ some Frame.terminator :=
      fun hlast => hline line h (List.mem_of_getLast? hlast)
    rw [Engine.process, Engine.process, Engine.dispatch, Engine.dispatch,
      Request.ofReceived_terminated hlast]

end Turn

/-- A response ends in its only terminator. -/
theorem IsResponse.eq_concat {response : Bytes} (h : IsResponse response) :
    response = response.dropLast ++ [Frame.terminator] ∧
      Frame.terminator ∉ response.dropLast := by
  obtain ⟨label, status, payload, -, -, -, -, hframed⟩ := h.framed
  obtain ⟨body, rfl⟩ : ∃ body, response = body ++ [Frame.terminator] :=
    ⟨label ++ status ++ Frame.opening :: payload ++ [Frame.closing], by simp [hframed]⟩
  rw [List.dropLast_concat]
  refine ⟨rfl, fun hmem => ?_⟩
  -- within the body there would be a terminator at an earlier place
  obtain ⟨i, hi, hplace⟩ := List.getElem_of_mem hmem
  have hlast := (h.terminator_iff i).1 (by rw [List.getElem?_append_left hi, ← hplace]; simp)
  rw [List.length_append, List.length_singleton] at hlast
  omega

/-- Responses in a row are cut apart after each terminator. -/
theorem pieces_flatten {responses : List Bytes} (h : ∀ response ∈ responses, IsResponse response) :
    Pieces responses.flatten (responses.map List.dropLast) [] where
  stream_eq := by
    have hconcat : ∀ response ∈ responses,
        id response = (response.dropLast ++ [Frame.terminator] : Bytes) :=
      fun response hmem => (h response hmem).eq_concat.1
    rw [List.map_map, List.append_nil]
    exact congrArg List.flatten ((List.map_id _).symm.trans (List.map_congr_left hconcat))
  lines_notMem := by
    intro line hline
    obtain ⟨response, hmem, rfl⟩ := List.mem_map.1 hline
    exact (h response hmem).eq_concat.2
  rest_notMem := List.not_mem_nil

/-- The host and the engine, with one queue between them. -/
structure Dialogue (σ : Type) where
  /-- The receiving end of the host link. -/
  inbox : Inbox
  engine : Engine
  peripherals : σ
  /-- The looks of the engine into the queue so far, the earliest first. -/
  turns : List (Turn σ)

/-- What may happen between the host and the engine. -/
inductive Dialogue.Action (σ : Type) where
  /-- The host sends a report. -/
  | report (data : Bytes)
  /-- The engine looks into the queue. -/
  | poll
  /-- The peripherals change on their own. -/
  | change (change : σ → σ)

namespace Dialogue

variable {σ : Type} (environment : Environment σ)

/-- The dialogue in which nothing was said, with a queue of `slots` slots. -/
def start (slots : Nat) (engine : Engine) (peripherals : σ) : Dialogue σ where
  inbox := .new slots
  engine := engine
  peripherals := peripherals
  turns := []

/-- The dialogue after an action. -/
def act (dialogue : Dialogue σ) : Action σ → Dialogue σ
  | .report data => { dialogue with inbox := dialogue.inbox.act (.report data) }
  | .poll =>
    let turn : Turn σ := ⟨dialogue.engine, dialogue.inbox.queue, dialogue.peripherals⟩
    let result := turn.result environment
    { inbox :=
        { dialogue.inbox with
          queue := result.1.2.2
          log := dialogue.inbox.log ++ [.dequeue turn.line?] }
      engine := result.1.2.1
      peripherals := result.2
      turns := dialogue.turns ++ [turn] }
  | .change change => { dialogue with peripherals := change dialogue.peripherals }

/-- The dialogue after a sequence of actions. -/
def run (dialogue : Dialogue σ) (actions : List (Action σ)) : Dialogue σ :=
  actions.foldl (act environment) dialogue

/-- What the host has received, without the padding of the reports. -/
def text (dialogue : Dialogue σ) : Bytes :=
  (reports (dialogue.turns.flatMap (Turn.events environment))).flatten.filter (· ≠ 0)

/-- The responses to the lines in turn. -/
def responses (dialogue : Dialogue σ) : List Bytes :=
  dialogue.turns.filterMap (Turn.response? environment)

/-- To the receiving end, a turn is that the oldest line is taken out of the queue. -/
theorem inbox_act_poll (dialogue : Dialogue σ) :
    (dialogue.act environment .poll).inbox = dialogue.inbox.act .dequeue := by
  obtain ⟨⟨assembler, ⟨lines, capacity⟩, log⟩, engine, peripherals, turns⟩ := dialogue
  have hqueue := Turn.lines_result environment ⟨engine, ⟨lines, capacity⟩, peripherals⟩
  -- the assembler is not touched, and the log entry is the same by definition
  cases lines <;> exact congrArg (Inbox.mk assembler · _) hqueue

/-- The queue of a dialogue is accounted for, and the turns have taken the lines out of it. -/
structure Accounted (slots : Nat) (dialogue : Dialogue σ) : Prop where
  /-- The receiving end is accounted for. -/
  inbox : ∃ arrivals rest, dialogue.inbox.Accounted (slots - 1) arrivals rest
  /-- The lines were taken by the turns, in their order. -/
  delivered_eq : Inbox.delivered dialogue.inbox.log = dialogue.turns.filterMap Turn.line?

theorem accounted_start (slots : Nat) (engine : Engine) (peripherals : σ) :
    (start slots engine peripherals).Accounted slots :=
  ⟨⟨_, _, Inbox.accounted_new slots⟩, rfl⟩

variable {environment} {slots : Nat} {dialogue : Dialogue σ}

/-- Every action keeps the account of what was received. -/
theorem Accounted.act (h : dialogue.Accounted slots) (action : Action σ) :
    (dialogue.act environment action).Accounted slots := by
  obtain ⟨⟨arrivals, rest, hinbox⟩, hdelivered⟩ := h
  cases action with
  | report data =>
    refine ⟨hinbox.act (.report data), ?_⟩
    simpa [Dialogue.act, Inbox.act] using hdelivered
  | poll =>
    constructor
    · rw [inbox_act_poll]
      exact hinbox.act .dequeue
    · let turn : Turn σ := ⟨dialogue.engine, dialogue.inbox.queue, dialogue.peripherals⟩
      show Inbox.delivered (dialogue.inbox.log ++ [.dequeue turn.line?]) =
        (dialogue.turns ++ [turn]).filterMap Turn.line?
      rw [Inbox.delivered_append, Inbox.delivered_dequeue, List.filterMap_append, hdelivered]
      cases h : turn.line? <;> simp [h]
  | change change => exact ⟨⟨arrivals, rest, hinbox⟩, hdelivered⟩

/-- The queue is accounted for after every run. -/
theorem accounted_run (environment : Environment σ) (slots : Nat) (engine : Engine)
    (peripherals : σ) (actions : List (Action σ)) :
    ((start slots engine peripherals).run environment actions).Accounted slots := by
  refine List.foldlRecOn actions (Dialogue.act environment)
    (accounted_start slots engine peripherals) ?_
  intro dialogue h action _
  exact h.act action

/-- Every line taken by a turn is what is kept of a line of the host. -/
theorem Accounted.notMem_line (h : dialogue.Accounted slots) {turn : Turn σ}
    (hturn : turn ∈ dialogue.turns) : ∀ line ∈ turn.line?, Frame.terminator ∉ line.data := by
  intro line hline
  obtain ⟨⟨arrivals, rest, hinbox⟩, hdelivered⟩ := h
  have haccepted : line ∈ Inbox.accepted (slots - 1) arrivals := by
    rw [← hinbox.delivered_append, hdelivered]
    exact List.mem_append_left _ (List.mem_filterMap.2 ⟨turn, hturn, hline⟩)
  obtain ⟨arrival, harrival, rfl⟩ := List.mem_map.1 haccepted
  have hcontent := List.mem_map_of_mem (f := Inbox.Arrival.content) (List.mem_filter.1 harrival).1
  exact ReceivedLine.notMem_data_ofContent (hinbox.pieces.lines_notMem _ hcontent)

/-- The reports of a dialogue are those of its responses, one after the other. -/
theorem reports_turns (haccepts : environment.AcceptsReports) (turns : List (Turn σ)) :
    reports (turns.flatMap (Turn.events environment)) =
      (turns.filterMap (Turn.response? environment)).flatMap Report.ofResponse := by
  induction turns with
  | nil => rfl
  | cons turn turns ih =>
    rw [List.flatMap_cons, reports_append, turn.reports_events haccepts, ih]
    cases h : turn.response? environment with
    | none => simp [h]
    | some response => simp [h]

/-- Everything that is answered is a response of the protocol. -/
theorem isResponse_of_mem_responses {response : Bytes}
    (h : response ∈ dialogue.responses environment) : IsResponse response := by
  obtain ⟨turn, -, hresponse⟩ := List.mem_filterMap.1 h
  exact turn.isResponse_of_response? hresponse

/-- The host gets the responses without a gap, and nothing else. -/
theorem text_eq_flatten (haccepts : environment.AcceptsReports) :
    dialogue.text environment = (dialogue.responses environment).flatten := by
  rw [text, reports_turns haccepts, ← responses]
  refine Report.filter_flatten_flatMap_ofResponse fun response hresponse => ?_
  exact (isResponse_of_mem_responses hresponse).zero_notMem

/-- There is a response for each turn with a line. -/
theorem length_responses :
    (dialogue.responses environment).length =
      dialogue.turns.countP (Turn.answered environment) := by
  rw [responses, List.length_filterMap_eq_countP]
  refine List.countP_congr fun turn _ => ?_
  rw [turn.answered_iff environment, Turn.response?, Option.isSome_map, Turn.line?]
  cases turn.queue.lines <;> simp

/-- Every line that was accepted is answered once and in its turn: in every run, the turns take the
accepted lines in order, each of them deals with its line alone, and the host can cut what it
receives into the responses, one for each turn that found a line. -/
theorem lines_answered (environment : Environment σ) (haccepts : environment.AcceptsReports)
    (slots : Nat) (engine : Engine) (peripherals : σ) (actions : List (Action σ)) :
    let dialogue := (start slots engine peripherals).run environment actions
    let responses := dialogue.responses environment
    (∃ arrivals rest, dialogue.inbox.Accounted (slots - 1) arrivals rest ∧
      dialogue.turns.filterMap Turn.line? ++ dialogue.inbox.queue.lines =
        Inbox.accepted (slots - 1) arrivals) ∧
    (∀ turn ∈ dialogue.turns, turn.Orderly environment) ∧
    dialogue.text environment = responses.flatten ∧
    (dialogue.text environment).splitOn Frame.terminator =
      responses.map List.dropLast ++ [[]] ∧
    responses.length = dialogue.turns.countP (Turn.answered environment) := by
  intro dialogue responses
  have haccounted : dialogue.Accounted slots :=
    accounted_run environment slots engine peripherals actions
  have htext : dialogue.text environment = responses.flatten := text_eq_flatten haccepts
  refine ⟨?_, fun turn hturn => turn.orderly (haccounted.notMem_line hturn), htext, ?_,
    length_responses⟩
  · obtain ⟨⟨arrivals, rest, hinbox⟩, hdelivered⟩ := haccounted
    exact ⟨arrivals, rest, hinbox, hdelivered ▸ hinbox.delivered_append⟩
  -- a response has its terminator at the end and nowhere else
  · rw [htext]
    exact (pieces_flatten fun response => isResponse_of_mem_responses).splitOn_eq

/-- The host asks for the version of the secure element in two reports, the second one padded. -/
theorem lines_answered_firmware :
    let actions : List (Action Unit) :=
      [.report (Bytes.ofText "B:F("), .report (Bytes.ofText "03)\nX"), .poll]
    let dialogue := (start 4 (Engine.new 10) ()).run (workingDevice 1 []) actions
    (workingDevice 1 []).AcceptsReports ∧
      dialogue.text (workingDevice 1 []) = Bytes.ofText "ECC108 00(010100)\n" := by
  intro actions dialogue
  have haccepts : (workingDevice 1 []).AcceptsReports := fun _ _ => rfl
  obtain ⟨-, -, htext, -⟩ := lines_answered _ haccepts 4 (Engine.new 10) () actions
  refine ⟨haccepts, htext.trans ?_⟩
  decide +kernel

end Dialogue

end SecureKit

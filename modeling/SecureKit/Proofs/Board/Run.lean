import SecureKit.Board

/-!
# Runs of a Board

A board is driven by the reports of the host, by its main loop and by the system tick, in any order,
while the peripherals around it may change at any time. A `Session` is what one gets from a sequence
of such actions; it remembers what the actions have been to the kit lock.
-/

namespace SecureKit.Board

/-- What may happen to a board with peripherals of state `σ`. -/
inductive Action (σ : Type) where
  /-- The host sends a report. -/
  | report (data : Bytes)
  /-- The engine answers the oldest line, if there is one. -/
  | poll
  /-- The tasks are run, if the bus is free. -/
  | runTasks
  /-- The system tick is counted. -/
  | tick
  /-- The peripherals change on their own. -/
  | change (change : σ → σ)

/-- What an action has been to the kit lock. -/
inductive Occurrence where
  /-- A line was answered. -/
  | line
  /-- A system tick was counted. -/
  | tick
  /-- Neither of them. -/
  | other
  deriving DecidableEq

/-- The ticks since the latest line of a history, in which what came last stands first; all ticks if
there was no line. -/
def ticksSinceLine (history : List Occurrence) : Nat :=
  (history.takeWhile (· ≠ .line)).count .tick

@[simp]
theorem ticksSinceLine_line (history : List Occurrence) :
    ticksSinceLine (.line :: history) = 0 := rfl

@[simp]
theorem ticksSinceLine_tick (history : List Occurrence) :
    ticksSinceLine (.tick :: history) = ticksSinceLine history + 1 := by
  simp [ticksSinceLine]

@[simp]
theorem ticksSinceLine_other (history : List Occurrence) :
    ticksSinceLine (.other :: history) = ticksSinceLine history := by
  simp [ticksSinceLine]

/-- A board among its peripherals, with what has happened so far. -/
structure Session (σ : Type) where
  /-- The board. -/
  board : Board
  /-- The state of the peripherals. -/
  peripherals : σ
  /-- What has happened, the latest first. -/
  history : List Occurrence

namespace Session

variable {σ : Type}

/-- A session with a new board. -/
def start (identity : Identity) (period : Nat) (peripherals : σ) : Session σ where
  board := .new identity period
  peripherals := peripherals
  history := []

/-- The session after an action. -/
def act (environment : Environment σ) (session : Session σ) : Action σ → Session σ
  | .report data =>
    { session with
      board := (session.board.report data).2
      history := .other :: session.history }
  | .poll =>
    let ((answered, board), peripherals) := session.board.poll.run environment session.peripherals
    { board, peripherals, history := (if answered then .line else .other) :: session.history }
  | .runTasks =>
    let ((_, board), peripherals) := session.board.runTasks.run environment session.peripherals
    { board, peripherals, history := .other :: session.history }
  | .tick =>
    { session with
      board := session.board.tick
      history := .tick :: session.history }
  | .change change =>
    { session with
      peripherals := change session.peripherals
      history := .other :: session.history }

/-- The session after a sequence of actions. -/
def run (environment : Environment σ) (session : Session σ) (actions : List (Action σ)) :
    Session σ :=
  actions.foldl (act environment) session

/-- What every action preserves holds after all of them. -/
theorem run_induction {environment : Environment σ} {motive : Session σ → Prop}
    (hact : ∀ session action, motive session → motive (session.act environment action))
    {session : Session σ} (h : motive session) (actions : List (Action σ)) :
    motive (session.run environment actions) := by
  induction actions generalizing session with
  | nil => exact h
  | cons action rest ih => exact ih (hact session action h)

end Session

end SecureKit.Board

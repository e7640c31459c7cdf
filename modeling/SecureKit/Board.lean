import SecureKit.Cloud.Client
import SecureKit.Element.PublicKey
import SecureKit.Protocol.Engine
import SecureKit.Timing.Scheduler

/-!
# The Board

The board puts the parts together: reports of the host become lines, the kit engine answers them,
and while the kit does not own the bus, fan control and cloud client run as tasks. One system tick
counts down the kit lock and the pause of the client.
-/

namespace SecureKit

/-- The state of the board. -/
structure Board where
  /-- Joins the reports of the host. -/
  assembler : LineAssembler
  /-- The lines that wait for the engine. -/
  queue : LineQueue
  /-- The kit engine with the kit lock. -/
  engine : Engine
  /-- The cloud client with its pause and the fan control. -/
  client : Client

namespace Board

/-- The period of the system tick in milliseconds. -/
def tickPeriod : Nat := 10

/-- The slot of the private key that signs tokens. -/
def signingSlot : UInt16 := 0

/-- The slots of the line queue. -/
def queueSlots : Nat := 4

/-- A board with a tick period. -/
def new (identity : Identity) (period : Nat) : Board where
  assembler := .new
  queue := .new queueSlots
  engine := .new period
  client := .new identity period

/-- The kit lock. -/
def kitLock : Timer Board where
  read board := board.engine.lock
  write board lock := { board with engine := { board.engine with lock } }

/-- The pause of the cloud client. -/
def clientWait : Timer Board where
  read board := board.client.wait
  write board wait := { board with client := { board.client with wait } }

/-- The holdoffs of the board. -/
def scheduler : Scheduler Board where
  kitLock := kitLock
  timers := [clientWait]

/-- Take in a report of the host. Returns whether it finished a line. -/
def report (board : Board) (data : Bytes) : Bool × Board :=
  let (finished, assembler, queue) := board.assembler.report board.queue data
  (finished, { board with assembler, queue })

/-- Answer the oldest line, if there is one. Returns whether there was one. -/
def poll (board : Board) : Program (Bool × Board) := do
  let (handled, engine, queue) ← board.engine.poll board.queue
  return (handled, { board with engine, queue })

/-- The fan control as a task. -/
def fanTask (board : Board) : Program Board := do
  let fan ← board.client.fan.poll
  return { board with client := { board.client with fan } }

/-- The cloud client as a task. -/
def clientTask (board : Board) : Program Board := do
  let client ← board.client.step
  return { board with client }

/-- Run the tasks while the kit does not own the bus. Returns how many were run. -/
def runTasks (board : Board) : Program (Nat × Board) :=
  scheduler.runTasks [fanTask, clientTask] board

/-- Count a system tick. -/
def tick (board : Board) : Board := scheduler.tick board

/-- A tick counts down the kit lock. -/
@[simp]
theorem lock_tick (board : Board) : board.tick.engine.lock = board.engine.lock.tick := rfl

/-- A tick counts down the pause of the client. -/
@[simp]
theorem wait_tick (board : Board) : board.tick.client.wait = board.client.wait.tick := rfl

end Board

end SecureKit

import SecureKit.Simulation.Bus
import SecureKit.Simulation.Services
import SecureKit.Timing.Clock

/-!
# The Test Bench

All simulated peripherals together, as an environment for programs. The bench keeps a log of the
calls with their answers, and the time spent waiting.
-/

namespace SecureKit

/-- The simulated peripherals of a board with a clock of type `κ`. -/
structure Bench (κ : Type) where
  /-- The calls so far. -/
  log : Array Event
  /-- The milliseconds spent waiting. -/
  waited : Nat
  bus : SimulatedBus
  host : SimulatedHost
  clock : κ
  fan : SimulatedFan
  cloud : SimulatedCloud κ

namespace Bench

variable {κ : Type} [Clock κ]

/-- Answer a call. -/
def answer (bench : Bench κ) (call : Call) : call.Reply × Bench κ :=
  let onBus {α : Type} (result : α × SimulatedBus) : α × Bench κ :=
    (result.1, { bench with bus := result.2 })
  let onFan {α : Type} (result : α × SimulatedFan) : α × Bench κ :=
    (result.1, { bench with fan := result.2 })
  let onCloud {α : Type} (result : α × SimulatedCloud κ) : α × Bench κ :=
    (result.1, { bench with cloud := result.2 })
  match call with
  | .wake => onBus bench.bus.wake
  | .idle => onBus (bench.bus.attempt .idle)
  | .sleep => onBus (bench.bus.attempt .sleep)
  | .send frame => onBus (bench.bus.send frame)
  | .receive room => onBus (bench.bus.receive room)
  | .address => (bench.bus.address, bench)
  | .select address => onBus ((), { bench.bus with address })
  | .busType => (.i2c, bench)
  | .executionTime opcode => (bench.bus.executionTime opcode, bench)
  | .delay millis => ((), { bench with waited := bench.waited + millis.toNat })
  | .report _ =>
    let (accepted, host) := bench.host.report
    (accepted, { bench with host })
  | .utc => (Clock.utc bench.clock, bench)
  | .setClock date => ((), { bench with clock := Clock.set bench.clock date })
  | .temperature => onFan bench.fan.read
  | .setFanSpeed rpm => onFan (bench.fan.set rpm)
  | .fanSpeed => onFan bench.fan.measure
  | .requestTime =>
    let (clock, cloud) := bench.cloud.requestTime bench.clock
    ((), { bench with clock, cloud })
  | .openSocket _ _ => onCloud (bench.cloud.attempt .openSocket)
  | .connect _ => onCloud (bench.cloud.attempt .connect)
  | .subscribe _ => onCloud (bench.cloud.attempt .subscribe)
  | .publish _ _ _ => onCloud (bench.cloud.attempt .publish)
  | .pollMessage room => onCloud (bench.cloud.poll room)
  | .hasError => (bench.cloud.networkError, bench)
  | .sign claims room => onCloud (bench.cloud.sign claims room)

/-- The bench as an environment. -/
def environment : Environment (Bench κ) where
  answer call bench :=
    let (reply, bench) := bench.answer call
    (reply, { bench with log := bench.log.push ⟨call, reply⟩ })

end Bench

end SecureKit

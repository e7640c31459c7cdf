import SecureKit.Proofs.Protocol.Request
import SecureKit.Protocol.Engine

/-!
# The Spelling of Lines

A line may be written in either case, and with or without its terminator. All that the engine sees
of it is the request in it, which is the same for each of its spellings.

* `dispatch_eq_of_ofReceived_eq` — lines with the same request are carried out alike.
* `spelling_ignored` — two spellings of a line cannot be told apart.
-/

namespace SecureKit

open Program

namespace Engine

/-- The lines cannot be told apart when the engine carries them out, from a command or from the
front of the queue: the calls and their answers are the same, and so are the response and the state
afterwards, of the engine and of the peripherals. -/
structure Indistinct (engine : Engine) (line line' : Bytes) : Prop where
  process_trace : ∀ {σ : Type} (environment : Environment σ) (state : σ),
    (engine.process line).trace environment state = (engine.process line').trace environment state
  process_run : ∀ {σ : Type} (environment : Environment σ) (state : σ),
    (engine.process line).run environment state = (engine.process line').run environment state
  poll_trace : ∀ {σ : Type} (environment : Environment σ) (state : σ) (overflow : Bool)
      (waiting : List ReceivedLine) (capacity : Nat),
    (engine.poll ⟨⟨line, overflow⟩ :: waiting, capacity⟩).trace environment state =
      (engine.poll ⟨⟨line', overflow⟩ :: waiting, capacity⟩).trace environment state
  poll_run : ∀ {σ : Type} (environment : Environment σ) (state : σ) (overflow : Bool)
      (waiting : List ReceivedLine) (capacity : Nat),
    (engine.poll ⟨⟨line, overflow⟩ :: waiting, capacity⟩).run environment state =
      (engine.poll ⟨⟨line', overflow⟩ :: waiting, capacity⟩).run environment state

section SameRequest

variable {line line' : Bytes} (h : Request.ofReceived line = Request.ofReceived line')

include h

/-- Nothing is looked at in a line but its request. -/
theorem dispatch_eq_of_ofReceived_eq (engine : Engine) :
    engine.dispatch line = engine.dispatch line' := by
  rw [dispatch, dispatch, h]

theorem respond_eq_of_ofReceived_eq (engine : Engine) (overflow : Bool) :
    engine.respond ⟨line, overflow⟩ = engine.respond ⟨line', overflow⟩ := by
  cases overflow with
  | false => exact dispatch_eq_of_ofReceived_eq h engine
  | true => rfl

/-- Lines that ask for the same cannot be told apart. -/
theorem indistinct_of_ofReceived_eq (engine : Engine) : engine.Indistinct line line' := by
  have hprocess : engine.process line = engine.process line' := by
    rw [process, process, dispatch_eq_of_ofReceived_eq h]
  have hpoll : ∀ overflow waiting capacity, engine.poll ⟨⟨line, overflow⟩ :: waiting, capacity⟩ =
      engine.poll ⟨⟨line', overflow⟩ :: waiting, capacity⟩ := by
    intro overflow waiting capacity
    rw [poll, poll]
    dsimp only [LineQueue.dequeue?]
    rw [respond_eq_of_ofReceived_eq h]
  constructor
  · intros
    rw [hprocess]
  · intros
    rw [hprocess]
  · intros
    rw [hpoll]
  · intros
    rw [hpoll]

end SameRequest

/-- The case of the letters of a line does not matter, and neither does one terminator at its end:
lines that are equal in lower case cannot be told apart, nor can a line be told apart from the same
line with a terminator. In lower case the letters from A to Z become those from a to z, and all
other bytes stay as they are. -/
theorem spelling_ignored (engine : Engine) (line : Bytes) :
    (∀ line' : Bytes, line.map lowerCase = line'.map lowerCase → engine.Indistinct line line') ∧
    (line.getLast? ≠ some Frame.terminator →
      engine.Indistinct line (line ++ [Frame.terminator])) ∧
    (∀ i : Fin 26, lowerCase (Bytes.ascii 'A' + UInt8.ofNat i) = Bytes.ascii 'a' + UInt8.ofNat i) ∧
    ∀ c : UInt8, ¬(Bytes.ascii 'A' ≤ c ∧ c ≤ Bytes.ascii 'Z') → lowerCase c = c := by
  refine ⟨fun line' hletters => ?_, fun hopen => ?_, by decide, fun c hc => if_neg hc⟩
  · exact engine.indistinct_of_ofReceived_eq (Request.ofReceived_eq_of_sameLetters hletters)
  · exact engine.indistinct_of_ofReceived_eq (Request.ofReceived_terminated hopen).symm

/-- A line that asks a device for its revision, with its letters in upper and in lower case, and
with and without a terminator. -/
theorem spelling_ignored_info :
    let capital := Bytes.ofText "LECC:S:T(0730000000035D)\n"
    let small := Bytes.ofText "lecc:s:t(0730000000035d)\n"
    let unterminated := Bytes.ofText "s:t(0730000000035d)"
    capital ≠ small ∧ (Engine.new 1).Indistinct capital small ∧
      (Engine.new 1).Indistinct unterminated (unterminated ++ [Frame.terminator]) ∧
      lowerCase 0xC4 = 0xC4 := by
  intro capital small unterminated
  refine ⟨by decide, ?_, ?_, ?_⟩
  · exact (spelling_ignored (Engine.new 1) capital).1 small (by decide)
  · exact (spelling_ignored (Engine.new 1) unterminated).2.1 (by decide)
  · exact (spelling_ignored (Engine.new 1) []).2.2.2 0xC4 (by decide)

end Engine

end SecureKit

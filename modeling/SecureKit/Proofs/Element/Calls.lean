import SecureKit.Element.Discovery
import SecureKit.Proofs.Peripheral.Calls

/-!
# The Calls of Element Operations

The operations on the secure element use its bus and the delay timer and nothing else. Those that
talk to the device leave its address alone; a discovery looks for it at other addresses.
-/

namespace SecureKit.Element

open Program

/-- Waking and idling belong to a transaction as well. -/
theorem callsOnly_awake {α : Type} {operation : Program (Exchange α)}
    (h : operation.CallsOnly Call.InTransaction) :
    (awake operation).CallsOnly Call.InTransaction := by
  refine ⟨trivial, fun woken => ?_⟩
  cases woken with
  | error error => trivial
  | ok => exact h.bind fun exchange => ⟨trivial, fun _ => trivial⟩

theorem callsOnly_receiveInto (room : Nat) :
    (receiveInto room).CallsOnly Call.InTransaction := ⟨trivial, fun _ => trivial⟩

/-- Sending and waiting belong to a transaction as well. -/
theorem callsOnly_sendAnd {α : Type} (frame : Bytes) (millis : UInt32)
    {rest : Program (Exchange α)} (h : rest.CallsOnly Call.InTransaction) :
    (sendAnd frame millis rest).CallsOnly Call.InTransaction := by
  refine ⟨trivial, fun sent => ?_⟩
  cases sent with
  | error error => trivial
  | ok => exact ⟨trivial, fun _ => h⟩

/-- Talking makes no calls but those of a transaction. -/
theorem callsOnly_talk (packet : Bytes) (room : Nat) :
    (talk packet room).CallsOnly Call.InTransaction := by
  rw [talk]
  cases Order.ofPacket packet with
  | error error => trivial
  | ok order =>
    refine ⟨trivial, fun time => ?_⟩
    cases time with
    | error error => trivial
    | ok millis =>
      show (if _ then _ else _ : Program (Exchange Nat)).CallsOnly _
      split
      · trivial
      · exact callsOnly_awake (callsOnly_sendAnd _ _ (callsOnly_receiveInto _))

theorem callsOnly_send (packet : Bytes) : (send packet).CallsOnly Call.InTransaction := by
  rw [send]
  cases Order.ofPacket packet with
  | error error => trivial
  | ok order =>
    refine ⟨trivial, fun time => ?_⟩
    cases time with
    | error error => trivial
    | ok millis => exact callsOnly_awake (callsOnly_sendAnd _ _ trivial)

theorem callsOnly_receive (size room : Nat) : (receive size room).CallsOnly Call.InTransaction :=
  callsOnly_awake (callsOnly_receiveInto _)

/-- Reading the revision is about the secure element only. -/
theorem callsOnly_readRevision : readRevision.CallsOnly Call.ForElement := by
  have htalk := callsOnly_talk revisionPacket wordResponse
  refine (htalk.mono fun _ => Call.InTransaction.forElement).bind fun exchange => ?_
  cases exchange.outcome <;> trivial

/-- A scan probes one address after the other, whatever the first probe has given. -/
theorem callsOnly_scan (addresses : List UInt8) (result : Except DeviceError Revision) :
    (scan addresses result).CallsOnly Call.ForElement := by
  induction addresses generalizing result with
  | nil => cases result <;> trivial
  | cons address rest ih =>
    cases result with
    | ok revision => trivial
    | error error => exact ⟨trivial, fun _ => callsOnly_readRevision.bind ih⟩

/-- A discovery is about the secure element only. -/
theorem callsOnly_discover : discover.CallsOnly Call.ForElement := by
  refine callsOnly_readRevision.bind fun first => ?_
  refine (callsOnly_scan _ _).bind fun outcome => ?_
  cases outcome with
  | error error => trivial
  | ok revision => exact ⟨trivial, fun _ => trivial⟩

end SecureKit.Element

import SecureKit.Host.Report
import SecureKit.Proofs.Peripheral.Calls

/-!
# Reports on Their Way Out

What reaches the host when the endpoint takes every report: each report of the response once and in
order. Without the padding they are the response.

* `filter_flatten_ofResponse` — a response can be read back from its reports.
* `reports_trace_send` — the reports that sending a response hands over.
-/

namespace SecureKit

open Program

/-- The report that was handed over to the host, if the event is such. -/
def Event.report? : Event → Option Bytes
  | ⟨.report data, true⟩ => some data
  | _ => none

/-- The reports that were handed over to the host. -/
def reports (events : List Event) : List Bytes := events.filterMap Event.report?

@[simp]
theorem reports_append (events events' : List Event) :
    reports (events ++ events') = reports events ++ reports events' := List.filterMap_append

/-- The endpoint takes every report. -/
def Environment.AcceptsReports {σ : Type} (environment : Environment σ) : Prop :=
  ∀ data state, (environment.answer (.report data) state).1 = true

namespace Report

/-- The only zero bytes that reports bring in are those of their padding. -/
theorem filter_flatten_ofResponse (response : Bytes) :
    (ofResponse response).flatten.filter (· ≠ 0) = response.filter (· ≠ 0) := by
  have hpadding : ∀ chunk : Bytes, (chunk.resize size).filter (· ≠ 0) =
      (chunk.take size).filter (· ≠ 0) := by
    intro chunk
    simp [Bytes.resize, Bytes.zeros]
  fun_induction ofResponse response with
  | case1 => rfl
  | case2 response hne ih =>
    -- the chunk that was cut off and the rest of the response make up the response again
    rw [List.flatten_cons, List.filter_append, ih, hpadding, List.take_take, Nat.min_self,
      ← List.filter_append, List.take_append_drop]

/-- Responses without a zero byte are left when the padding of their reports is dropped. -/
theorem filter_flatten_flatMap_ofResponse {responses : List Bytes}
    (h : ∀ response ∈ responses, 0 ∉ response) :
    (responses.flatMap ofResponse).flatten.filter (· ≠ 0) = responses.flatten := by
  induction responses with
  | nil => rfl
  | cons response responses ih =>
    obtain ⟨hfirst, hrest⟩ := List.forall_mem_cons.1 h
    rw [List.flatMap_cons, List.flatten_append, List.filter_append, filter_flatten_ofResponse,
      ih hrest, List.flatten_cons]
    congr 1
    rw [List.filter_eq_self]
    intro c hc
    exact decide_eq_true fun hzero => hfirst (hzero ▸ hc)

/-- A call that hands over a report, or the pause after one. -/
def Delivers : Call → Prop
  | .report _ | .delay _ => True
  | _ => False

theorem callsOnly_deliver (retries : Nat) (reports : List Bytes) :
    (deliver retries reports).CallsOnly Delivers := by
  fun_induction deliver retries reports with
  | case1 => trivial
  | case2 retries report rest ihtaken ihrejected =>
    refine ⟨trivial, fun taken => ?_⟩
    cases taken with
    | true => exact ⟨trivial, fun _ => ihtaken⟩
    | false =>
      cases retries with
      | zero => trivial
      | succ retries => exact ⟨trivial, fun _ => ihrejected⟩

/-- Sending a response makes no calls but reports and pauses. -/
theorem callsOnly_send (response : Bytes) : (send response).CallsOnly Delivers := by
  rw [send]
  split
  · trivial
  · exact callsOnly_deliver retries _

variable {σ : Type} {environment : Environment σ}

/-- With an endpoint that takes every report, each is handed over once and in order. -/
theorem reports_trace_deliver (haccepts : environment.AcceptsReports) (retries : Nat)
    (pending : List Bytes) (state : σ) :
    reports ((deliver retries pending).trace environment state) = pending := by
  induction pending generalizing state with
  | nil => rw [deliver]; rfl
  | cons report rest ih =>
    have htaken : (environment.answer (.report report) state).1 = true := haccepts report state
    rw [deliver.eq_def]
    simp only [htaken, done_bind, if_true, perform_eq, call_bind, trace_call]
    exact congrArg (report :: ·) (ih _)

/-- A host that accepts every report gets all reports of a response. -/
theorem reports_trace_send (haccepts : environment.AcceptsReports) (response : Bytes) (state : σ) :
    reports ((send response).trace environment state) = ofResponse response := by
  rw [send]
  split
  next h => rw [h]; rfl
  next => exact reports_trace_deliver haccepts retries _ state

end Report

end SecureKit

import SecureKit.Proofs.Host.Report

/-!
# Reports that Are Rejected

The endpoint may reject a report at any time. A rejected report is sent again as long as there are
retries left, which are counted over the whole response, so that the host gets a first part of the
response, without gaps and without doubles.

* `ofResponse_eq_map` — the reports are the consecutive chunks of the response, padded.
* `Course` — how the reports are handed over, one attempt after the other; `course_deliver` says
  that every endpoint leads to one.
* `send_chunked` — what is accepted, attempted and awaited, and when it is given up.
-/

namespace SecureKit

open Program

/-- An attempt to hand over a report. -/
structure Attempt where
  /-- The report. -/
  report : Bytes
  /-- Whether the endpoint took it. -/
  accepted : Bool
  deriving DecidableEq

/-- The attempt that an event is, if it is one. -/
def Event.attempt? : Event → Option Attempt
  | ⟨.report report, accepted⟩ => some ⟨report, accepted⟩
  | _ => none

/-- The attempts among events. -/
def attempts (events : List Event) : List Attempt := events.filterMap Event.attempt?

/-- The number of attempts that were accepted. -/
def acceptances (attempts : List Attempt) : Nat := attempts.countP (·.accepted)

/-- The number of attempts that were rejected. -/
def rejections (attempts : List Attempt) : Nat := attempts.countP (!·.accepted)

namespace Report

/-- The number of reports that a response takes. -/
def chunkCount (response : Bytes) : Nat := (response.length + (size - 1)) / size

/-- The report with chunk `i` of a response, filled up with zero bytes. -/
def chunk (response : Bytes) (i : Nat) : Bytes := (response.window (i * size) size).toList

/-- The attempt as an event. -/
def attempted (report : Bytes) (accepted : Bool) : Event := ⟨.report report, accepted⟩

/-- The pause between attempts as an event. -/
def paused : Event := ⟨.delay pause, ()⟩

/-- Attempts with a pause after each. -/
def withPauses (attempts : List Attempt) : List Event :=
  attempts.flatMap fun attempt => [attempted attempt.report attempt.accepted, paused]

/-- The events of handing over reports with a number of retries left, and whether all of them were
accepted in the end. -/
inductive Course : Nat → List Bytes → List Event → Bool → Prop
  /-- There are no more reports. -/
  | finished (retries : Nat) : Course retries [] [] true
  /-- The report is accepted, and it goes on with the next one. -/
  | accepted {retries : Nat} (report : Bytes) {rest : List Bytes} {events : List Event}
      {complete : Bool} (hrest : Course retries rest events complete) :
      Course retries (report :: rest) (attempted report true :: paused :: events) complete
  /-- The report is rejected, and is sent again. -/
  | rejected {retries : Nat} {report : Bytes} {rest : List Bytes} {events : List Event}
      {complete : Bool} (hagain : Course retries (report :: rest) events complete) :
      Course (retries + 1) (report :: rest) (attempted report false :: paused :: events) complete
  /-- The report is rejected, and nothing more is done. -/
  | gaveUp (report : Bytes) (rest : List Bytes) :
      Course 0 (report :: rest) [attempted report false] false

/-- Whatever the endpoint does, handing over reports takes a course. -/
theorem course_deliver (retries : Nat) (reports : List Bytes) :
    (deliver retries reports).Ensures (Course retries reports) := by
  -- an accepted report leaves fewer reports, a rejected one fewer retries
  fun_induction deliver retries reports with
  | case1 retries => exact .finished retries
  | case2 retries report rest ihaccepted ihrejected =>
    intro accepted
    cases accepted with
    | true => exact fun _ => ihaccepted.mono fun _ _ hrest => .accepted report hrest
    | false =>
      cases retries with
      | zero => exact .gaveUp report rest
      | succ retries => exact fun _ => ihrejected.mono fun _ _ hagain => .rejected hagain

/-- Place by place, a chunk has the bytes of the response, and zero bytes after them. -/
theorem chunk_eq_map (response : Bytes) (i : Nat) :
    chunk response i = (List.range size).map fun place => response.getD (i * size + place) 0 := by
  rw [chunk, Bytes.window, Vector.toList_ofFn]
  exact List.ext_getElem (by simp) fun place _ _ => by simp

/-- The reports of a response are its chunks. -/
theorem ofResponse_eq_map (response : Bytes) :
    ofResponse response = (List.range (chunkCount response)).map (chunk response) := by
  fun_induction ofResponse response with
  | case1 => rfl
  | case2 response hne ih =>
    have hpos : 0 < response.length := List.length_pos_iff.2 hne
    have hcount : chunkCount response = chunkCount (response.drop size) + 1 := by
      simp only [chunkCount, List.length_drop, size]
      omega
    have hfirst : Bytes.resize (response.take size) size = chunk response 0 := by
      rw [Bytes.resize_eq_map_range, chunk_eq_map]
      refine List.map_congr_left fun place hplace => ?_
      simp [List.getElem?_take_of_lt (List.mem_range.1 hplace)]
    -- behind the first report, every chunk is one place further ahead
    have hnext : chunk (response.drop size) = chunk response ∘ Nat.succ := by
      funext i
      rw [Function.comp_apply, chunk_eq_map, chunk_eq_map]
      refine List.map_congr_left fun place _ => ?_
      rw [List.getD_eq_getElem?_getD, List.getElem?_drop, List.getD_eq_getElem?_getD]
      congr 2
      rw [Nat.succ_mul]
      omega
    rw [hcount, List.range_succ_eq_map, List.map_cons, List.map_map, ih, hfirst, hnext]

/-- Only the empty response takes no reports. -/
theorem ofResponse_eq_nil_iff {response : Bytes} : ofResponse response = [] ↔ response = [] := by
  rw [ofResponse]
  split
  next hempty => exact iff_of_true rfl hempty
  next hne => exact iff_of_false (List.cons_ne_nil _ _) hne

@[simp]
theorem attempts_nil : attempts [] = [] := rfl

@[simp]
theorem attempts_attempted (report : Bytes) (accepted : Bool) (events : List Event) :
    attempts (attempted report accepted :: events) = ⟨report, accepted⟩ :: attempts events := rfl

@[simp]
theorem attempts_paused (events : List Event) : attempts (paused :: events) = attempts events := rfl

@[simp]
theorem reports_attempted_true (report : Bytes) (events : List Event) :
    reports (attempted report true :: events) = report :: reports events := rfl

@[simp]
theorem reports_paused (events : List Event) : reports (paused :: events) = reports events := rfl

namespace Course

variable {retries : Nat} {pending : List Bytes} {events : List Event} {complete : Bool}

/-- The reports that were accepted are the first ones, each once and in order. -/
theorem reports_isPrefix (h : Course retries pending events complete) :
    reports events <+: pending := by
  induction h with
  | finished => exact List.nil_prefix
  | accepted report _ ih => exact (List.prefix_cons_inj report).2 ih
  | rejected _ ih => exact ih
  | gaveUp => exact List.nil_prefix

/-- It is complete exactly if all reports were accepted. -/
theorem complete_iff (h : Course retries pending events complete) :
    complete = true ↔ reports events = pending := by
  induction h with
  | finished => exact iff_of_true rfl rfl
  | accepted report _ ih => simp [ih]
  | rejected _ ih => exact ih
  | gaveUp => exact iff_of_false Bool.false_ne_true (List.cons_ne_nil _ _).symm

/-- Every attempt is made with the first report that was not accepted yet, and while there are
retries left. -/
theorem attempt_next (h : Course retries pending events complete) {before after : List Attempt}
    {attempt : Attempt} (hsplit : attempts events = before ++ attempt :: after) :
    pending[acceptances before]? = some attempt.report ∧ rejections before ≤ retries := by
  induction h generalizing before with
  | finished => simp at hsplit
  | accepted report _ ih =>
    rw [attempts_attempted, attempts_paused, List.cons_eq_append_iff] at hsplit
    rcases hsplit with ⟨rfl, hfirst⟩ | ⟨before, rfl, hrest⟩
    · obtain ⟨rfl, -⟩ := List.cons.inj hfirst
      exact ⟨rfl, Nat.zero_le _⟩
    · -- the acceptance moves on to the next report
      simpa [acceptances, rejections] using ih hrest
  | rejected _ ih =>
    rw [attempts_attempted, attempts_paused, List.cons_eq_append_iff] at hsplit
    rcases hsplit with ⟨rfl, hfirst⟩ | ⟨before, rfl, hrest⟩
    · obtain ⟨rfl, -⟩ := List.cons.inj hfirst
      exact ⟨rfl, Nat.zero_le _⟩
    · -- the rejection uses up a retry
      simpa [acceptances, rejections] using ih hrest
  | gaveUp report rest =>
    rw [attempts_attempted, List.cons_eq_append_iff] at hsplit
    rcases hsplit with ⟨rfl, hfirst⟩ | ⟨before, -, hrest⟩
    · obtain ⟨rfl, -⟩ := List.cons.inj hfirst
      exact ⟨rfl, Nat.zero_le _⟩
    · simp at hrest

/-- There is at most one attempt for each report and each retry. -/
theorem length_attempts_le (h : Course retries pending events complete) :
    (attempts events).length ≤ pending.length + retries := by
  induction h with
  | finished => exact Nat.zero_le _
  | accepted _ _ ih =>
    simp only [attempts_attempted, attempts_paused, List.length_cons] at ih ⊢
    omega
  | rejected _ ih =>
    simp only [attempts_attempted, attempts_paused, List.length_cons] at ih ⊢
    omega
  | gaveUp => simp

/-- If it is complete, there were no more rejections than retries, and a pause after every
attempt. -/
theorem of_complete (h : Course retries pending events complete) (hcomplete : complete = true) :
    rejections (attempts events) ≤ retries ∧ events = withPauses (attempts events) := by
  induction h with
  | finished => exact ⟨Nat.zero_le _, rfl⟩
  | accepted report _ ih =>
    obtain ⟨hrejections, hpauses⟩ := ih hcomplete
    exact ⟨by simpa [rejections] using hrejections,
      congrArg (attempted report true :: paused :: ·) hpauses⟩
  | @rejected _ report _ _ _ _ ih =>
    obtain ⟨hrejections, hpauses⟩ := ih hcomplete
    exact ⟨by simpa [rejections] using hrejections,
      congrArg (attempted report false :: paused :: ·) hpauses⟩
  | gaveUp => exact absurd hcomplete Bool.false_ne_true

/-- If it is not complete, it was given up at the rejection after those that used up the retries,
and the only pause left out is the one after it. -/
theorem of_not_complete (h : Course retries pending events complete)
    (hcomplete : complete = false) :
    (∃ before report,
      attempts events = before ++ [⟨report, false⟩] ∧ rejections before = retries) ∧
      events ++ [paused] = withPauses (attempts events) := by
  induction h with
  | finished => exact absurd hcomplete Bool.true_eq_false.mp
  | accepted report _ ih =>
    obtain ⟨⟨before, last, hattempts, hrejections⟩, hpauses⟩ := ih hcomplete
    refine ⟨⟨⟨report, true⟩ :: before, last, by simp [hattempts], ?_⟩,
      congrArg (attempted report true :: paused :: ·) hpauses⟩
    simpa [rejections] using hrejections
  | @rejected _ report _ _ _ _ ih =>
    obtain ⟨⟨before, last, hattempts, hrejections⟩, hpauses⟩ := ih hcomplete
    refine ⟨⟨⟨report, false⟩ :: before, last, by simp [hattempts], ?_⟩,
      congrArg (attempted report false :: paused :: ·) hpauses⟩
    simpa [rejections] using hrejections
  | gaveUp report rest => exact ⟨⟨[], report, rfl, rfl⟩, rfl⟩

end Course

/-- Sending a response hands over its reports, and it has arrived if all of them were accepted and
there was anything to send. -/
theorem course_send (response : Bytes) :
    (send response).Ensures fun events arrived =>
      ∃ complete, Course retries (ofResponse response) events complete ∧
        arrived = (complete && !response.isEmpty) := by
  rw [send]
  split
  next hnone =>
    rw [hnone, ofResponse_eq_nil_iff.1 hnone]
    exact ⟨true, .finished _, rfl⟩
  next hsome =>
    have hne : response.isEmpty = false := by
      rw [Bool.eq_false_iff, ne_eq, List.isEmpty_iff, ← ofResponse_eq_nil_iff]
      exact hsome
    refine (course_deliver retries (ofResponse response)).mono fun _ complete hcourse => ?_
    exact ⟨complete, hcourse, by simp [hne]⟩

/-- Whatever the endpoint accepts, the reports that it has accepted are the first chunks of the
response, and every attempt carries the chunk after them. The response has arrived exactly if there
was something to send and all of it was accepted; otherwise it was given up at the first rejection
after `retries` others. There is a pause after every other attempt. -/
theorem send_chunked {σ : Type} (environment : Environment σ) (state : σ) (response : Bytes) :
    let chunks := (List.range (chunkCount response)).map (chunk response)
    let events := (send response).trace environment state
    let arrived := ((send response).run environment state).1
    reports events <+: chunks ∧
      (∀ before attempt after, attempts events = before ++ attempt :: after →
        chunks[acceptances before]? = some attempt.report ∧ rejections before ≤ retries) ∧
      (arrived = true ↔ response ≠ [] ∧ reports events = chunks) ∧
      (reports events = chunks →
        rejections (attempts events) ≤ retries ∧ events = withPauses (attempts events)) ∧
      (reports events ≠ chunks →
        (∃ before report,
          attempts events = before ++ [⟨report, false⟩] ∧ rejections before = retries) ∧
        events ++ [paused] = withPauses (attempts events)) ∧
      (attempts events).length ≤ chunkCount response + retries ∧
      (response = [] → events = []) := by
  intro chunks events arrived
  obtain ⟨complete, hcourse, harrived⟩ := (course_send response).run environment state
  rw [ofResponse_eq_map] at hcourse
  -- `complete` is the flag of the loop; an empty response leaves it set, but nothing has arrived
  have hcomplete : complete = true ↔ reports events = chunks := hcourse.complete_iff
  refine ⟨hcourse.reports_isPrefix, fun _ _ _ => hcourse.attempt_next, ?_,
    fun hall => hcourse.of_complete (hcomplete.2 hall), fun hmissing => ?_, ?_, ?_⟩
  · rw [← hcomplete]
    simp [arrived, harrived, and_comm]
  · exact hcourse.of_not_complete (Bool.eq_false_iff.2 fun htrue => hmissing (hcomplete.1 htrue))
  · simpa using hcourse.length_attempts_le
  · rintro rfl
    have hnone : send [] = return false := by
      rw [send, ofResponse_eq_nil_iff.2 rfl]
    simp [events, hnone]

end Report

end SecureKit

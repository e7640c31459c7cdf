import SecureKit.Peripheral.Program

/-!
# Host Reports

A response goes to the host in reports of fixed size, the last one padded with zero bytes. A report
that is not accepted is sent again, up to `retries` times over the whole response.
-/

namespace SecureKit.Report

open Program

/-- The size of a report. -/
def size : Nat := 64

/-- The number of rejected reports that are sent again. -/
def retries : Nat := 5

/-- The pause after a report, in milliseconds. -/
def pause : UInt32 := 50

/-- The reports that carry a response. -/
def ofResponse (response : Bytes) : List Bytes :=
  if response = [] then []
  else Bytes.resize (response.take size) size :: ofResponse (response.drop size)
termination_by response.length
decreasing_by
  rename_i h
  have := List.length_pos_iff.2 h
  simp [size]
  omega

/-- Send reports in order, each until it is accepted, while there are retries left. There is a pause
after every attempt but the one after which it gives up. Returns whether all were accepted. -/
def deliver (retries : Nat) (reports : List Bytes) : Program Bool :=
  match reports with
  | [] => return true
  | report :: rest => do
    if ← perform (.report report) then
      perform (.delay pause)
      deliver retries rest
    else
      -- the retries are those of the whole response, and there is no pause before giving up
      match retries with
      | 0 => return false
      | retries + 1 =>
        perform (.delay pause)
        deliver retries (report :: rest)
termination_by retries + reports.length

/-- Send a response. Returns whether it has arrived; an empty one has not. -/
def send (response : Bytes) : Program Bool :=
  match ofResponse response with
  | [] => return false
  | reports => deliver retries reports

/-- All reports have the same size. -/
theorem length_of_mem_ofResponse {response report : Bytes} (h : report ∈ ofResponse response) :
    report.length = size := by
  fun_induction ofResponse response with
  | case1 => simp at h
  | case2 response hne ih =>
    rcases List.mem_cons.1 h with rfl | h
    · simp
    · exact ih h

end SecureKit.Report

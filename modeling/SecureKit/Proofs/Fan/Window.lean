import Mathlib.Algebra.Group.Fin.Basic
import Mathlib.Algebra.Group.Int.Defs
import Mathlib.Algebra.Group.Units.Equiv
import Mathlib.Data.List.FinRange
import SecureKit.Fan.Control

/-!
# The Window of Readings

The ring of the fan control, read from its oldest reading on, is a window over the readings taken so
far: the last of them, where the first one stands for those that are missing. Its average is exact
for all readings.

* `Follows.push` — a reading moves the window on by one.
* `toInt_average` — the average is the mean of the window, without overflow.
* `mean_between` — the mean lies between the readings of the window.
-/

namespace SecureKit.Samples

/-- The readings in the ring, the oldest first. -/
def window (samples : Samples) : List Int32 :=
  List.ofFn fun place : Fin size => samples.ring[samples.next + place]

/-- The last `size` of the readings, the first one standing for those that are missing. -/
def lastReadings : List Int32 → List Int32
  | [] => []
  | first :: rest => (List.replicate size first ++ first :: rest).drop (first :: rest).length

/-- The sum of readings. -/
def total (readings : List Int32) : Int :=
  readings.foldl (fun sum (reading : Int32) => sum + reading.toInt) 0

/-- The mean of the readings of a window, rounded toward zero. -/
def mean (window : List Int32) : Int := (total window).tdiv size

section Window

variable {samples : Samples}

theorem length_window (samples : Samples) : samples.window.length = size := List.length_ofFn

/-- A new reading takes the place that comes next, and no other. -/
theorem getElem_push (h : samples.primed) (reading : Int32) (place : Fin size) :
    (samples.push reading).ring[place] =
      if place = samples.next then reading else samples.ring[place] := by
  simp [push, h, Vector.getElem_set, Fin.ext_iff, eq_comm]

/-- In a window that is filled, a new reading takes the place of the oldest. -/
theorem window_push_of_primed (h : samples.primed) (reading : Int32) :
    (samples.push reading).window = samples.window.tail ++ [reading] := by
  -- the place of the oldest reading is taken by the newest, and the walk starts one place later
  have hlast : samples.next + 1 + Fin.last 3 = samples.next := by
    rw [add_assoc]
    exact add_zero _
  have hinit (place : Fin 3) : samples.next + 1 + place.castSucc = samples.next + place.succ := by
    rw [add_assoc, add_comm 1, Fin.coeSucc_eq_succ]
  have hne (place : Fin 3) : samples.next + place.succ ≠ samples.next := by simp
  have htail : samples.window.tail =
      List.ofFn fun place : Fin 3 => samples.ring[samples.next + place.succ] := by
    rw [window, List.ofFn_succ]
    rfl
  calc (samples.push reading).window
    _ = (List.ofFn fun place : Fin 3 =>
            (samples.push reading).ring[samples.next + 1 + place.castSucc]) ++
          [(samples.push reading).ring[samples.next + 1 + Fin.last 3]] := by
        rw [window, List.ofFn_succ', List.concat_eq_append]
        rfl
    _ = (List.ofFn fun place : Fin 3 => samples.ring[samples.next + place.succ]) ++ [reading] := by
        simp only [getElem_push h, hinit, hlast, hne, if_true, if_false]
    _ = samples.window.tail ++ [reading] := by rw [htail]

/-- The first reading fills the window. -/
theorem window_push_of_not_primed (h : ¬samples.primed) (reading : Int32) :
    (samples.push reading).window = List.replicate size reading := by
  have hring (place : Fin size) : (samples.push reading).ring[place] = reading := by
    simp [push, h]
  rw [window]
  simp only [hring, List.ofFn_const]

/-- The samples hold the last of the readings taken so far. -/
structure Follows (samples : Samples) (readings : List Int32) : Prop where
  /-- The ring is filled once there is a reading. -/
  primed : samples.primed ↔ readings ≠ []
  window : readings ≠ [] → samples.window = lastReadings readings

theorem follows_new : new.Follows [] where
  primed := by simp [new]
  window h := absurd rfl h

/-- Once there is a reading, the next one takes the place of the oldest. -/
theorem lastReadings_concat {readings : List Int32} (h : readings ≠ []) (reading : Int32) :
    lastReadings (readings ++ [reading]) = (lastReadings readings).tail ++ [reading] := by
  obtain ⟨first, rest, rfl⟩ := List.exists_cons_of_ne_nil h
  have hlength :
      (first :: rest).length + 1 ≤ (List.replicate size first ++ first :: rest).length := by
    simp [size]
  calc lastReadings (first :: rest ++ [reading])
    _ = (List.replicate size first ++ first :: rest ++ [reading]).drop
          ((first :: rest).length + 1) := by
        simp [lastReadings]
    _ = (List.replicate size first ++ first :: rest).drop ((first :: rest).length + 1) ++
          [reading] := List.drop_append_of_le_length hlength
    _ = (lastReadings (first :: rest)).tail ++ [reading] := by
        rw [lastReadings, List.tail_drop]

/-- A new reading is followed as well. -/
theorem Follows.push {readings : List Int32} (h : samples.Follows readings) (reading : Int32) :
    (samples.push reading).Follows (readings ++ [reading]) where
  primed := by simp [Samples.push]
  window _ := by
    by_cases hreadings : readings = []
    case pos =>
      -- the first reading fills the window
      have hprimed : ¬samples.primed := fun hprimed => h.primed.1 hprimed hreadings
      rw [window_push_of_not_primed hprimed, hreadings]
      rfl
    case neg =>
      -- from then on, both lose their oldest and get the new one at the end
      rw [window_push_of_primed (h.primed.2 hreadings), h.window hreadings,
        lastReadings_concat hreadings]

end Window

section Average

/-- The window is the ring, read from another place on. -/
theorem window_perm (samples : Samples) : samples.window.Perm samples.ring.toList := by
  have hperm := (Equiv.addLeft samples.next).ofFn_comp_perm fun place => samples.ring[place]
  have hring : (List.ofFn fun place : Fin size => samples.ring[place]) = samples.ring.toList := by
    rw [← Vector.toList_ofFn]
    exact congrArg Vector.toList Vector.ofFn_getElem
  exact hring ▸ hperm

/-- As long as nothing overflows, a sum in 64 bits is the sum of the readings. -/
theorem toInt_foldl (readings : List Int32) (start : Int64)
    (hlow : -2 ^ 62 ≤ start.toInt - 2 ^ 31 * readings.length)
    (hhigh : start.toInt + 2 ^ 31 * readings.length ≤ 2 ^ 62) :
    (readings.foldl (fun sum reading => sum + reading.toInt64) start).toInt =
      readings.foldl (fun sum reading => sum + reading.toInt) start.toInt := by
  induction readings generalizing start with
  | nil => rfl
  | cons reading rest ih =>
    have hle := reading.le_toInt
    have hlt := reading.toInt_lt
    rw [List.length_cons] at hlow hhigh
    -- one reading takes the sum by at most 2 ^ 31 towards the bounds
    have hsum : (start + reading.toInt64).toInt = start.toInt + reading.toInt := by
      rw [Int64.toInt_add, Int32.toInt_toInt64]
      exact Int.bmod_eq_of_le (by omega) (by omega)
    rw [List.foldl_cons, List.foldl_cons, ← hsum]
    exact ih _ (by omega) (by omega)

/-- A sum of readings lies between the sums of as many bounds. -/
theorem foldl_between {readings : List Int32} {low high : Int}
    (h : ∀ reading ∈ readings, low ≤ reading.toInt ∧ reading.toInt ≤ high) (start : Int) :
    let sum := readings.foldl (fun sum reading => sum + reading.toInt) start
    start + low * readings.length ≤ sum ∧ sum ≤ start + high * readings.length := by
  induction readings generalizing start with
  | nil => simp
  | cons reading rest ih =>
    obtain ⟨hreading, hrest⟩ := List.forall_mem_cons.1 h
    have hrest := ih hrest (start + reading.toInt)
    rw [List.length_cons, Int.natCast_add, Int.mul_add, Int.mul_add, List.foldl_cons]
    dsimp only at hrest ⊢
    omega

/-- A mean lies between the bounds of its readings. -/
theorem mean_between {window : List Int32} (hlength : window.length = size) {low high : Int}
    (h : ∀ reading ∈ window, low ≤ reading.toInt ∧ reading.toInt ≤ high) :
    low ≤ mean window ∧ mean window ≤ high := by
  have hsum := foldl_between h 0
  rw [hlength, Int.zero_add, Int.zero_add] at hsum
  have hsize : (0 : Int) < size := by decide
  constructor
  · calc low
      _ = (low * size).tdiv size := (Int.mul_tdiv_cancel low hsize.ne').symm
      _ ≤ mean window := Int.tdiv_le_tdiv hsize hsum.1
  · calc mean window
      _ ≤ (high * size).tdiv size := Int.tdiv_le_tdiv hsize hsum.2
      _ = high := Int.mul_tdiv_cancel high hsize.ne'

/-- The window is the ring from another place on, so the sums agree. -/
theorem total_window (samples : Samples) : total samples.window = total samples.ring.toList := by
  apply samples.window_perm.foldl_eq'
  intro _ _ _ _ _
  omega

/-- The average is the mean of the readings in the window, for any readings. -/
theorem toInt_average (samples : Samples) : samples.average.toInt = mean samples.window := by
  have hlength : samples.ring.toList.length = size := samples.ring.length_toList
  have hsum : (samples.ring.foldl (fun sum (reading : Int32) => sum + reading.toInt64) 0).toInt =
      total samples.window := by
    rw [total_window, ← Vector.foldl_toList, total]
    exact toInt_foldl _ 0 (by rw [hlength]; decide) (by rw [hlength]; decide)
  have hbounds := mean_between samples.length_window
    fun reading _ => ⟨reading.le_toInt, Int.le_sub_one_of_lt reading.toInt_lt⟩
  rw [average, Int64.toInt_toInt32, Int64.toInt_div, hsum]
  change ((mean samples.window).bmod (2 ^ 64)).bmod (2 ^ 32) = mean samples.window
  -- neither the division nor the narrowing loses anything, as the mean is within 32 bits
  have hquotient : (mean samples.window).bmod (2 ^ 64) = mean samples.window :=
    Int.bmod_eq_of_le (by omega) (by omega)
  rw [hquotient]
  exact Int.bmod_eq_of_le (by omega) (by omega)

-- The first reading counts three times, and -5 / 4 is rounded toward zero.
example : mean (lastReadings [-1, -2]) = -1 := by decide

end Average

end SecureKit.Samples

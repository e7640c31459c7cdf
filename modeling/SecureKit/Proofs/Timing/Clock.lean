import SecureKit.Proofs.Timing.Calendar
import SecureKit.Simulation.Bench

/-!
# Setting a Clock

A clock is set to a date that comes in a packed record. No record that is accepted is lost on a
clock, for all dates that can be set have their seconds.

* `ofPacked?_eq_some_iff` — the records that are accepted.
* `LawfulClock` — clocks that show the seconds of the date they were set to.
* `Environment.Timed` — peripherals with a clock among them.
-/

namespace SecureKit

namespace DateTime

/-- The packed record of a date: the year, low byte first, and the other fields in one byte each. -/
def packed (time : DateTime) : Bytes :=
  [UInt8.ofNat (time.year.toNat % 256), UInt8.ofNat (time.year.toNat / 256), time.month, time.day,
    time.hour, time.minute, time.second]

/-- Two bytes are a half word, the low one first. -/
theorem toNat_ofNat_littleEndian (low high : UInt8) :
    (UInt16.ofNat (Bytes.littleEndian [low, high])).toNat = low.toNat + 256 * high.toNat := by
  have hlow := low.toNat_lt
  have hhigh := high.toNat_lt
  have hnumber : Bytes.littleEndian [low, high] = low.toNat + 256 * high.toNat := by
    simp only [Bytes.littleEndian]
    omega
  rw [hnumber]
  exact UInt16.toNat_ofNat_of_lt' (by rw [UInt16.size]; omega)

/-- The record of a date at the start of a text, byte by byte. -/
theorem eq_packed_append_iff (time : DateTime) (bytes : Bytes) :
    (∃ rest, bytes = time.packed ++ rest) ↔
      ∃ low high rest, bytes = low :: high :: time.month :: time.day :: time.hour :: time.minute ::
        time.second :: rest ∧ time.year = UInt16.ofNat (Bytes.littleEndian [low, high]) := by
  constructor
  · rintro ⟨rest, rfl⟩
    refine ⟨_, _, rest, rfl, UInt16.toNat_inj.1 ?_⟩
    have hyear := time.year.toNat_lt
    rw [toNat_ofNat_littleEndian, UInt8.toNat_ofNat_of_lt' (by rw [UInt8.size]; omega),
      UInt8.toNat_ofNat_of_lt' (by rw [UInt8.size]; omega)]
    omega
  · rintro ⟨low, high, rest, rfl, hyear⟩
    have hlow := low.toNat_lt
    have hsame : time.year.toNat % 256 = low.toNat ∧ time.year.toNat / 256 = high.toNat := by
      rw [hyear, toNat_ofNat_littleEndian]
      omega
    refine ⟨rest, ?_⟩
    rw [packed, hsame.1, hsame.2, UInt8.ofNat_toNat, UInt8.ofNat_toNat]
    rfl

/-- A record is accepted if its fields are within their ranges, and gives just its fields. -/
theorem ofPacked?_eq_some_iff {bytes : Bytes} {time : DateTime} :
    ofPacked? bytes = some time ↔ time.InRange ∧ ∃ rest, bytes = time.packed ++ rest := by
  rw [eq_packed_append_iff]
  constructor
  · intro h
    refine ⟨inRange_of_ofPacked? h, ?_⟩
    unfold ofPacked? at h
    split at h
    next low high month day hour minute second rest =>
      dsimp only at h
      split_ifs at h
      obtain rfl := Option.some.inj h
      exact ⟨low, high, rest, rfl, rfl⟩
    next => cases h
  · rintro ⟨hrange, low, high, rest, rfl, hyear⟩
    have hvalid := time.isValid_iff.2 hrange
    rw [ofPacked?, ← hyear]
    exact if_pos hvalid

end DateTime

/-- A clock that shows the seconds of the date it was set to, if the date has them. -/
class LawfulClock (κ : Type) [Clock κ] : Prop where
  utc_set : ∀ (clock : κ) {date : DateTime} {seconds : UInt32}, date.seconds? = some seconds →
    Clock.utc (Clock.set clock date) = seconds

instance : LawfulClock StillClock where
  utc_set clock _ _ h := congrArg (·.getD clock.now) h

instance : LawfulClock SystemClock where
  utc_set clock date seconds h := by
    have hset : clock.set date = { clock with reading := some { seconds, millis := 0 } } := by
      rw [SystemClock.set, h]
    exact congrArg SystemClock.utc hset

/-- The clock is a part of the peripherals' state: it tells the time, and is set to a date. -/
structure Environment.Timed {σ κ : Type} [Clock κ] (environment : Environment σ) (clock : σ → κ) :
    Prop where
  tells : ∀ state, (environment.answer .utc state).1 = Clock.utc (clock state)
  sets : ∀ date state,
    clock (environment.answer (.setClock date) state).2 = Clock.set (clock state) date

/-- On the bench there is a clock. -/
theorem Bench.timed {κ : Type} [Clock κ] : (Bench.environment (κ := κ)).Timed Bench.clock :=
  ⟨fun _ => rfl, fun _ _ => rfl⟩

/-- A bench with a clock on which nothing is scripted. -/
def Bench.unscripted {κ : Type} (clock : κ) : Bench κ where
  log := #[]
  waited := 0
  bus := ⟨0xC0, none, none, [], [], none, 0⟩
  host := ⟨[], true⟩
  clock := clock
  fan := ⟨[], 0, [], 0, []⟩
  cloud := ⟨[], [], [], false, []⟩

end SecureKit

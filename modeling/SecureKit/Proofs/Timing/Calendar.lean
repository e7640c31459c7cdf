import SecureKit.Proofs.Timing.Date

/-!
# Seconds of a Date

The seconds that are calculated for a date and a time of day are those counted day by day, in words
of 32 bits that never wrap around.

* `shows_dayNumber?` — the number of a day is calculated without leaving the range of a word.
* `seconds?_eq` — only a number of seconds that is too large is refused.
* `InRange.exists_seconds?` — no date that can be set is.
* `seconds?_gregorian` — the calendar is the Gregorian one.
-/

namespace SecureKit.DateTime

/-- The date without the time of day. -/
def date (time : DateTime) : Date := ⟨time.year.toNat, time.month.toNat, time.day.toNat⟩

/-- The seconds since midnight. -/
def secondOfDay (time : DateTime) : Nat :=
  3600 * time.hour.toNat + 60 * time.minute.toNat + time.second.toNat

/-- January and February are counted to the year before. -/
theorem toNat_countedYear (time : DateTime) :
    time.countedYear.toNat =
      if time.date.month ≤ 2 then time.date.year - 1 else time.date.year := by
  have hiff : time.month ≤ 2 ↔ time.date.month ≤ 2 := UInt8.le_iff_toNat_le
  simp only [countedYear, hiff]
  split
  · exact Word.toNat_saturatingSub _ _
  · rfl

/-- January and February are counted as the last months of a year. -/
theorem toNat_countedMonth (time : DateTime) :
    time.countedMonth.toNat =
      if time.date.month ≤ 2 then time.date.month + 12 else time.date.month := by
  have hiff : time.month ≤ 2 ↔ time.date.month ≤ 2 := UInt8.le_iff_toNat_le
  simp only [countedMonth, hiff]
  split
  next h =>
    have : time.month.toUInt32.toNat + 12 < 2 ^ 32 := by
      have := time.month.toNat_lt
      rw [UInt8.toNat_toUInt32]
      omega
    rw [UInt32.toNat_add, UInt8.toNat_toUInt32]
    exact Nat.mod_eq_of_lt this
  · rfl

/-- No operation on the way to the number of a day leaves the range of 32 bits, whatever the fields
of the record hold. -/
theorem shows_dayNumber? (time : DateTime) : Word.Shows time.dayNumber? time.date.number := by
  have hsize : UInt32.size = 4294967296 := rfl
  have hday : time.day.toNat ≤ 255 := Nat.le_of_lt_succ time.day.toNat_lt
  have hyear : time.countedYear.toNat ≤ 65535 := by
    have : time.date.year ≤ 65535 := Nat.le_of_lt_succ time.year.toNat_lt
    rw [toNat_countedYear]
    split <;> omega
  have hmonth : time.countedMonth.toNat ≤ 267 := by
    have : time.date.month ≤ 255 := Nat.le_of_lt_succ time.month.toNat_lt
    rw [toNat_countedMonth]
    split <;> omega
  have hnumber : time.date.number = 365 * time.countedYear.toNat + time.countedYear.toNat / 4 -
      time.countedYear.toNat / 100 + time.countedYear.toNat / 400 +
      30 * time.countedMonth.toNat + 3 * (time.countedMonth.toNat + 1) / 5 + time.day.toNat := by
    rw [Date.number, leapDays, ← toNat_countedYear, ← toNat_countedMonth]
    dsimp only [date]
    omega
  rw [hnumber, dayNumber?]
  clear hnumber
  generalize time.countedYear = year, time.countedMonth = month at hyear hmonth ⊢
  have hfour : (year / 4).toNat = year.toNat / 4 := UInt32.toNat_div year 4
  have hhundred : (year / 100).toNat = year.toNat / 100 := UInt32.toNat_div year 100
  have hquad : (year / 400).toNat = year.toNat / 400 := UInt32.toNat_div year 400
  -- one step for each operation on words, in the order in which they are made
  refine (Word.shows_mul? (m := 365) rfl rfl (by omega)).bind fun _ hdays => ?_
  refine (Word.shows_add? hdays hfour (by omega)).bind fun _ hdays => ?_
  refine (Word.shows_sub? hdays hhundred (by omega)).bind fun _ hdays => ?_
  refine (Word.shows_add? hdays hquad (by omega)).bind fun _ hdays => ?_
  refine (Word.shows_mul? (m := 30) rfl rfl (by omega)).bind fun _ hthirties => ?_
  refine (Word.shows_add? hdays hthirties (by omega)).bind fun _ hdays => ?_
  refine (Word.shows_add? (n := 1) rfl rfl (by omega)).bind fun _ hnext => ?_
  refine (Word.shows_mul? (m := 3) rfl hnext (by omega)).bind fun triple htriple => ?_
  have hlong : (triple / 5).toNat = 3 * (month.toNat + 1) / 5 :=
    (UInt32.toNat_div triple 5).trans (congrArg (· / 5) htriple)
  refine (Word.shows_add? hdays hlong (by omega)).bind fun _ hdays => ?_
  exact Word.shows_add? hdays rfl (by omega)

/-- The products for the time of day are words as well. -/
theorem shows_mul?_hour (time : DateTime) :
    Word.Shows (Word.mul? 3600 time.hour.toUInt32) (3600 * time.hour.toNat) := by
  have hhour := time.hour.toNat_lt
  have hsize : UInt32.size = 4294967296 := rfl
  exact Word.shows_mul? rfl rfl (by omega)

/-- The seconds of the minutes fit into a word. -/
theorem shows_mul?_minute (time : DateTime) :
    Word.Shows (Word.mul? 60 time.minute.toUInt32) (60 * time.minute.toNat) := by
  have hminute := time.minute.toNat_lt
  have hsize : UInt32.size = 4294967296 := rfl
  exact Word.shows_mul? rfl rfl (by omega)

/-- The seconds are the exact number wherever that is a word. -/
theorem seconds?_eq (time : DateTime) :
    time.seconds? = Word.ofNat? ((time.date.number - 719561) * 86400 + time.secondOfDay) := by
  obtain ⟨days, hdays, vdays⟩ := time.shows_dayNumber?
  obtain ⟨hours, hhours, vhours⟩ := time.shows_mul?_hour
  obtain ⟨minutes, hminutes, vminutes⟩ := time.shows_mul?_minute
  have hwhole : Word.mul? (Word.saturatingSub days epochDay) 86400 =
      Word.ofNat? ((time.date.number - 719561) * 86400) := by
    have hepoch : epochDay.toNat = 719561 := by decide
    have hfactor : UInt32.toNat 86400 = 86400 := by decide
    rw [Word.mul?, Word.toNat_saturatingSub, vdays, hepoch, hfactor]
  generalize (time.date.number - 719561) * 86400 = midnight at hwhole ⊢
  -- the products are words, so that only the additions can fail
  have hsum : time.seconds? = (Word.ofNat? midnight).bind fun seconds =>
      (Word.add? seconds hours).bind fun seconds =>
        (Word.add? seconds minutes).bind (Word.add? · time.second.toUInt32) := by
    rw [seconds?, hdays, Option.bind_eq_bind, Option.bind_some, hwhole, hhours, hminutes]
    rfl
  rw [hsum, Word.bind_ofNat?_add?_bind, Word.bind_ofNat?_add?_bind, Word.bind_ofNat?_add?, vhours,
    vminutes]
  refine congrArg Word.ofNat? ?_
  have hsecond : time.second.toUInt32.toNat = time.second.toNat := UInt8.toNat_toUInt32 _
  rw [secondOfDay]
  omega

/-- The record stands for a time of a day that is in the calendar. -/
structure Exists (time : DateTime) : Prop where
  date : time.date.Exists
  hour_lt : time.hour.toNat < 24
  minute_lt : time.minute.toNat < 60
  second_lt : time.second.toNat < 60

/-- The parts of a date and time, which are compared in this order. -/
def parts (time : DateTime) : List Nat :=
  time.date.parts ++ [time.hour.toNat, time.minute.toNat, time.second.toNat]

/-- A time of day is less than a day. -/
theorem Exists.secondOfDay_lt {time : DateTime} (h : time.Exists) : time.secondOfDay < 86400 := by
  obtain ⟨-, hhour, hminute, hsecond⟩ := h
  rw [secondOfDay]
  omega

/-- Of two times in order, the earlier one is on an earlier date or earlier on that date. -/
theorem Exists.lt_of_parts_lt {earlier later : DateTime} (h : earlier.Exists)
    (hlt : earlier.parts < later.parts) :
    earlier.date.parts < later.date.parts ∨
      earlier.date = later.date ∧ earlier.secondOfDay < later.secondOfDay := by
  obtain ⟨-, -, hminute, hsecond⟩ := h
  simp only [parts, Date.parts, List.cons_append, List.nil_append, List.cons_lt_cons_iff,
    List.lt_irrefl, and_false, or_false] at hlt ⊢
  rw [Date.ext_iff, secondOfDay, secondOfDay]
  omega

/-- The seconds to a date that is reached after `days` days. -/
theorem seconds?_of_after {time : DateTime} {days : Nat} (h : Date.after days = time.date) :
    time.seconds? = Word.ofNat? (86400 * days + time.secondOfDay) := by
  rw [seconds?_eq, ← h, Date.number_after]
  refine congrArg Word.ofNat? ?_
  omega

/-- The fields of the record are within the ranges of a date that can be set. The month may be
shorter than the day. -/
structure InRange (time : DateTime) : Prop where
  le_year : 1970 ≤ time.year.toNat
  year_le : time.year.toNat ≤ 2105
  one_le_month : 1 ≤ time.month.toNat
  month_le : time.month.toNat ≤ 12
  one_le_day : 1 ≤ time.day.toNat
  day_le : time.day.toNat ≤ 31
  hour_lt : time.hour.toNat < 24
  minute_lt : time.minute.toNat < 60
  second_lt : time.second.toNat < 60

/-- A time is valid if all its parts are in their ranges. -/
theorem isValid_iff (time : DateTime) : time.isValid = true ↔ time.InRange := by
  simp only [isValid, Bool.and_eq_true, decide_eq_true_eq, UInt8.le_iff_toNat_le,
    UInt8.lt_iff_toNat_lt]
  constructor
  · rintro ⟨⟨⟨⟨⟨⟨⟨⟨hyear, hyear'⟩, hmonth⟩, hmonth'⟩, hday⟩, hday'⟩, hhour⟩, hminute⟩, hsecond⟩
    exact ⟨hyear, hyear', hmonth, hmonth', hday, hday', hhour, hminute, hsecond⟩
  · rintro ⟨hyear, hyear', hmonth, hmonth', hday, hday', hhour, hminute, hsecond⟩
    exact ⟨⟨⟨⟨⟨⟨⟨⟨hyear, hyear'⟩, hmonth⟩, hmonth'⟩, hday⟩, hday'⟩, hhour⟩, hminute⟩, hsecond⟩

/-- A date that can be set has its seconds, also where its day is past the end of the month. -/
theorem InRange.exists_seconds? {time : DateTime} (h : time.InRange) :
    ∃ n, time.seconds? = some n := by
  obtain ⟨-, hyear, -, hmonth, -, hday, hhour, hminute, hsecond⟩ := h
  have hsize : UInt32.size = 4294967296 := rfl
  have hlast : time.date.number ≤ 719561 + 49700 := by
    have hyear' : time.date.year ≤ 2105 := hyear
    have hmonth' : time.date.month ≤ 12 := hmonth
    have hday' : time.date.day ≤ 31 := hday
    rw [Date.number, leapDays]
    split <;> omega
  have hofDay : time.secondOfDay < 86400 := by
    rw [secondOfDay]
    omega
  rw [seconds?_eq]
  exact ⟨_, if_pos (by omega)⟩

/-- Every time in a packed record is in range. -/
theorem inRange_of_ofPacked? {bytes : Bytes} {time : DateTime} (h : ofPacked? bytes = some time) :
    time.InRange := by
  rw [← isValid_iff]
  unfold ofPacked? at h
  split at h
  · dsimp only at h
    split at h
    next hvalid => exact Option.some.inj h ▸ hvalid
    next => cases h
  · cases h

/-- Where a later time has its seconds, an earlier one has fewer. -/
theorem Exists.exists_seconds?_lt {earlier later : DateTime} (h : earlier.Exists)
    (h' : later.Exists) (hyear : 1970 ≤ earlier.date.year) (hlt : earlier.parts < later.parts)
    {n : UInt32} (hn : later.seconds? = some n) : ∃ m, earlier.seconds? = some m ∧ m < n := by
  have horder := h.lt_of_parts_lt hlt
  have hyear' : 1970 ≤ later.date.year := by
    rcases horder with hdate | ⟨hdate, -⟩
    · exact Nat.le_trans hyear (Date.year_le_of_parts_lt hdate)
    · exact hdate ▸ hyear
  obtain ⟨days, hdays⟩ := Date.exists_after_eq h.date hyear
  obtain ⟨days', hdays'⟩ := Date.exists_after_eq h'.date hyear'
  have hless : 86400 * days + earlier.secondOfDay < 86400 * days' + later.secondOfDay := by
    have hday := h.secondOfDay_lt
    -- an earlier day at whatever time, or the same day at an earlier time
    rcases horder with hdate | ⟨hdate, hsecond⟩
    · rw [← hdays, ← hdays'] at hdate
      have := Date.lt_of_parts_after_lt hdate
      omega
    · have := Date.after_inj (hdays.trans (hdate.trans hdays'.symm))
      omega
  rw [seconds?_of_after hdays', Word.ofNat?_eq_some_iff] at hn
  rw [← hn] at hless
  obtain ⟨m, hm, hmless⟩ := Word.shows_ofNat? (Nat.lt_trans hless n.toNat_lt_size)
  refine ⟨m, (seconds?_of_after hdays).trans hm, UInt32.lt_iff_toNat_lt.2 ?_⟩
  rwa [hmless]

/-- Every time of a day in the calendar has the seconds since 1970 that are counted day by day, if
they fit into 32 bits, and none otherwise; nothing wraps around on the way, whatever the fields of
the record hold. So the seconds of an earlier time are less than those of a later one. A record that
is accepted always has its seconds. -/
theorem seconds?_gregorian :
    (∀ time : DateTime, time.Exists → 1970 ≤ time.year.toNat →
      ∃ days, (∀ n, Date.after n = time.date ↔ n = days) ∧
        time.seconds?.map UInt32.toNat =
          let seconds := 86400 * days + time.secondOfDay
          if seconds < UInt32.size then some seconds else none) ∧
    (∀ time : DateTime,
      Word.Shows time.dayNumber? time.date.number ∧
        Word.Shows (Word.mul? 3600 time.hour.toUInt32) (3600 * time.hour.toNat) ∧
        Word.Shows (Word.mul? 60 time.minute.toUInt32) (60 * time.minute.toNat)) ∧
    (∀ earlier later : DateTime, earlier.Exists → later.Exists → 1970 ≤ earlier.year.toNat →
      earlier.parts < later.parts →
        ∀ n, later.seconds? = some n → ∃ m, earlier.seconds? = some m ∧ m < n) ∧
    (∀ bytes time, ofPacked? bytes = some time → ∃ n, time.seconds? = some n) := by
  refine ⟨fun time h hyear => ?_, fun time => ?_, fun _ _ h h' hyear hlt _ hn => ?_,
    fun _ _ h => (inRange_of_ofPacked? h).exists_seconds?⟩
  · obtain ⟨days, hdays⟩ := Date.exists_after_eq h.date hyear
    refine ⟨days, fun n => ⟨fun hn => ?_, fun hn => hn ▸ hdays⟩, ?_⟩
    · exact Date.after_inj (hn.trans hdays.symm)
    · rw [seconds?_of_after hdays, Word.map_toNat_ofNat?]
  · exact ⟨time.shows_dayNumber?, time.shows_mul?_hour, time.shows_mul?_minute⟩
  · exact h.exists_seconds?_lt h' hyear hlt hn

/-- The last second of a leap day is counted as such and comes before the day after it, and a record
with a day that does not exist is counted all the same. -/
theorem seconds?_gregorian_leapDay :
    let leapDay : DateTime := ⟨2000, 2, 29, 23, 59, 59⟩
    let after : DateTime := ⟨2000, 3, 1, 0, 0, 0⟩
    after.seconds? = some 951868800 ∧
      (∃ days, (∀ n, Date.after n = leapDay.date ↔ n = days) ∧
        leapDay.seconds?.map UInt32.toNat =
          let seconds := 86400 * days + 86399
          if seconds < UInt32.size then some seconds else none) ∧
      (∃ m, leapDay.seconds? = some m ∧ m < 951868800) ∧
      ∃ n, seconds? ⟨2105, 2, 31, 0, 0, 0⟩ = some n := by
  intro leapDay after
  have hleapDay : leapDay.Exists :=
    ⟨⟨by decide, by decide, by decide, by decide⟩, by decide, by decide, by decide⟩
  have hafter : after.Exists :=
    ⟨⟨by decide, by decide, by decide, by decide⟩, by decide, by decide, by decide⟩
  have hseconds : after.seconds? = some 951868800 := by decide
  obtain ⟨hcounted, -, hincreasing, haccepted⟩ := seconds?_gregorian
  refine ⟨hseconds, hcounted leapDay hleapDay (by decide), ?_, ?_⟩
  · exact hincreasing leapDay after hleapDay hafter (by decide) (by decide) _ hseconds
  · exact haccepted [0x39, 0x08, 2, 31, 0, 0, 0] _ (by decide)

end SecureKit.DateTime

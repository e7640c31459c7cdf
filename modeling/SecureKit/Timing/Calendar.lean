import SecureKit.Text.Bytes
import SecureKit.Timing.Word

/-!
# Calendar

Calendar dates and the seconds since 1970-01-01T00:00:00Z they stand for. They are calculated in
32-bit words, and `DateTime.seconds?` is `none` where an operation would leave their range.
-/

namespace SecureKit

/-- A calendar date with a time of day, UTC. Fields may be out of range. -/
structure DateTime where
  /-- The full year. -/
  year : UInt16
  /-- The month, from 1. -/
  month : UInt8
  /-- The day of the month, from 1. -/
  day : UInt8
  hour : UInt8
  minute : UInt8
  second : UInt8
  deriving DecidableEq

namespace DateTime

/-- The size of a packed record. -/
def packedSize : Nat := 7

/-- The first and the last year whose seconds all fit into 32 bits. -/
def years : Nat × Nat := (1970, 2105)

/-- Whether a date can be set: a year within `years`, and month, day and time within their usual
ranges. The length of the month is not looked at. -/
def isValid (date : DateTime) : Bool :=
  years.1 ≤ date.year.toNat && date.year.toNat ≤ years.2 &&
    1 ≤ date.month && date.month ≤ 12 && 1 ≤ date.day && date.day ≤ 31 &&
    date.hour < 24 && date.minute < 60 && date.second < 60

/-- The date in the record `year (low byte first), month, day, hour, minute, second` at the start of
`bytes`, if there is one and it is valid. -/
def ofPacked? (bytes : Bytes) : Option DateTime :=
  match bytes with
  | low :: high :: month :: day :: hour :: minute :: second :: _ =>
    let date : DateTime :=
      { year := UInt16.ofNat (Bytes.littleEndian [low, high])
        month, day, hour, minute, second }
    if date.isValid then some date else none
  | _ => none

/-- The day number of 1970-01-01 in the count of `dayNumber?`. -/
def epochDay : UInt32 := 719561

/-- The year of a date in the count in which leap days come last in a year: January and February
belong to the year before. -/
def countedYear (date : DateTime) : UInt32 :=
  if date.month ≤ 2 then Word.saturatingSub date.year.toUInt32 1 else date.year.toUInt32

/-- The month of a date in the count in which leap days come last in a year: January and February
are the months 13 and 14. -/
def countedMonth (date : DateTime) : UInt32 :=
  if date.month ≤ 2 then date.month.toUInt32 + 12 else date.month.toUInt32

open Word

/-- The number of a day, if no operation leaves the range of 32 bits. -/
def dayNumber? (date : DateTime) : Option UInt32 := do
  let year := date.countedYear
  let month := date.countedMonth
  let days ← add? (← mul? 365 year) (year / 4)
  let days ← add? (← sub? days (year / 100)) (year / 400)
  -- thirty days for each month, and one more for each of those that have 31
  let days ← add? days (← mul? 30 month)
  let days ← add? days ((← mul? 3 (← add? month 1)) / 5)
  add? days date.day.toUInt32

/-- The seconds since 1970-01-01T00:00:00Z, if they fit into 32 bits. Earlier days count as the
first. -/
def seconds? (date : DateTime) : Option UInt32 := do
  let days ← date.dayNumber?
  let seconds ← mul? (saturatingSub days epochDay) 86400
  let seconds ← add? seconds (← mul? 3600 date.hour.toUInt32)
  let seconds ← add? seconds (← mul? 60 date.minute.toUInt32)
  add? seconds date.second.toUInt32

end DateTime

end SecureKit

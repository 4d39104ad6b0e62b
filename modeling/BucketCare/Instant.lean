import BucketCare.Text.Blank

/-!
# Points and spans of time

A point in time as the nanoseconds since the start of 1970 in universal time, its calendar date
in the Gregorian calendar, and its written forms; and spans of time that are not negative, written
in minutes, seconds and milliseconds.

## Main definitions

* `Instant` — a point in time
* `Instant.ofParts?` — the point in time given in seconds and nanoseconds, within the years that
  can be represented
* `CivilDate.ofDay` — the calendar date of a day
* `Instant.display`, `Instant.iso` — date and time for listings and for documents
* `withinAge` — the entries that pass two bounds on their age
* `Elapsed` — a span in nanoseconds
* `Elapsed.display` — `m:ss.mmm`, with hours in front when there are any
-/

namespace BucketCare

/-- A day of the Gregorian calendar. -/
structure CivilDate where
  year : Int
  month : Nat
  day : Nat
  deriving DecidableEq, Repr

namespace CivilDate

/-- The date of a day, counted from the first of January 1970. Years are counted from March, so
that a leap day ends its year; 400 years have 146097 days. -/
def ofDay (days : Int) : CivilDate :=
  let shifted := days + 719468
  let era := shifted.fdiv 146097
  let inEra := (shifted - era * 146097).toNat
  let yearOfEra := (inEra - inEra / 1460 + inEra / 36524 - inEra / 146096) / 365
  let dayOfYear := inEra - (365 * yearOfEra + yearOfEra / 4 - yearOfEra / 100)
  let marchMonth := (5 * dayOfYear + 2) / 153
  let day := dayOfYear - (153 * marchMonth + 2) / 5 + 1
  let month := if marchMonth < 10 then marchMonth + 3 else marchMonth - 9
  ⟨(yearOfEra : Int) + era * 400 + (if month ≤ 2 then 1 else 0), month, day⟩

/-- The written form of a year: four digits, and a sign in front outside of 0 to 9999. -/
def displayYear (year : Int) : String :=
  if 0 ≤ year ∧ year ≤ 9999 then Text.padZero 4 year.toNat
  else (if year < 0 then "-" else "+") ++ Text.padZero 4 year.natAbs

/-- Year, month and day, divided by hyphens. -/
def display (date : CivilDate) : String :=
  displayYear date.year ++ "-" ++ Text.padZero 2 date.month ++ "-" ++ Text.padZero 2 date.day

end CivilDate

/-- A point in time. -/
structure Instant where
  /-- The nanoseconds since the start of 1970 in universal time. -/
  nanoseconds : Int
  deriving DecidableEq, Repr, Inhabited

namespace Instant

/-- The nanoseconds of a second. -/
def perSecond : Int := 1000000000

/-- The first and the last second that can be represented. -/
def firstSecond : Int := -8334601228800

/-- The last second that can be represented. -/
def lastSecond : Int := 8210266876799

/-- The point in time given in seconds and nanoseconds, if it can be represented. -/
def ofParts? (seconds : Int) (nanoseconds : Nat) : Option Instant :=
  if firstSecond ≤ seconds ∧ seconds ≤ lastSecond then
    some ⟨seconds * perSecond + nanoseconds⟩
  else none

/-- The whole seconds of a point in time. -/
def seconds (t : Instant) : Int := t.nanoseconds.fdiv perSecond

/-- The nanoseconds behind the whole seconds. -/
def subsecond (t : Instant) : Nat := (t.nanoseconds.fmod perSecond).toNat

/-- The calendar date. -/
def date (t : Instant) : CivilDate := CivilDate.ofDay (t.seconds.fdiv 86400)

/-- The time of day in hours, minutes and seconds. -/
def clock (t : Instant) : String :=
  let s := (t.seconds.fmod 86400).toNat
  Text.padZero 2 (s / 3600) ++ ":" ++ Text.padZero 2 (s / 60 % 60) ++ ":" ++
    Text.padZero 2 (s % 60)

/-- The fraction of a second, with as many groups of three digits as it needs. -/
def fraction (t : Instant) : String :=
  let n := t.subsecond
  if n = 0 then ""
  else if n % 1000000 = 0 then "." ++ Text.padZero 3 (n / 1000000)
  else if n % 1000 = 0 then "." ++ Text.padZero 6 (n / 1000)
  else "." ++ Text.padZero 9 n

/-- Date and time for listings. -/
def display (t : Instant) : String := t.date.display ++ " " ++ t.clock

/-- Date and time for documents, without the mark of the time zone. -/
def iso (t : Instant) : String := t.date.display ++ "T" ++ t.clock ++ t.fraction

/-- Date and time for documents, in universal time. -/
def isoUtc (t : Instant) : String := t.iso ++ "Z"

/-- An order in which an absent time comes before any other. -/
def compareAbsentFirst : Option Instant → Option Instant → Ordering
  | none, none => .eq
  | none, some _ => .lt
  | some _, none => .gt
  | some a, some b => compare a.nanoseconds b.nanoseconds

end Instant

/-- A length of time in nanoseconds; it may be negative. -/
structure Span where
  nanoseconds : Int
  deriving DecidableEq, Repr

namespace Span

/-- A length given in milliseconds. -/
def ofMilliseconds (ms : Int) : Span := ⟨ms * 1000000⟩

/-- The most seconds that a length given in seconds may have; more count as this many. -/
def maxSeconds : Nat := 9223372036854775

/-- A length given in seconds. -/
def ofSeconds (seconds : Nat) : Span := ⟨(min seconds maxSeconds : Nat) * Instant.perSecond⟩

end Span

/-- An entry of some time passes two bounds on its age: it is at least as old as the first and at
most as old as the second. An entry without a time passes only when there is no bound. -/
def withinAge (time : Option Instant) (now : Instant) (olderThan newerThan : Option Span) : Bool :=
  if olderThan.isNone && newerThan.isNone then true
  else match time with
    | none => false
    | some t =>
      let age := now.nanoseconds - t.nanoseconds
      olderThan.all (fun bound => decide (bound.nanoseconds ≤ age)) &&
        newerThan.all (fun bound => decide (age ≤ bound.nanoseconds))

/-- A span of time in nanoseconds. -/
structure Elapsed where
  nanoseconds : Nat
  deriving DecidableEq, Repr, Inhabited

namespace Elapsed

/-- A span given in seconds and nanoseconds. -/
def ofParts (seconds nanoseconds : Nat) : Elapsed := ⟨seconds * 1000000000 + nanoseconds⟩

/-- The whole milliseconds of a span. -/
def milliseconds (span : Elapsed) : Nat := span.nanoseconds / 1000000

/-- `m:ss.mmm`, or `h:mm:ss.mmm` from one hour on; what is below a millisecond is dropped. -/
def display (span : Elapsed) : String :=
  let ms := span.milliseconds
  let hours := ms / 3600000
  let minutes := ms / 60000 % 60
  let tail := Text.padZero 2 (ms / 1000 % 60) ++ "." ++ Text.padZero 3 (ms % 1000)
  if hours = 0 then toString minutes ++ ":" ++ tail
  else toString hours ++ ":" ++ Text.padZero 2 minutes ++ ":" ++ tail

end Elapsed

end BucketCare

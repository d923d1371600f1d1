/-!
# Instants and the civil calendar

An instant is a number of seconds since the beginning of 1970 with a fraction in nanoseconds.  A
leap second is written as the second before it with a fraction of a thousand million nanoseconds
or more, so instants compare by seconds first and by fraction second.

* `Date` with `Date.dayNumber` and `Date.ofDayNumber` — the proleptic Gregorian calendar;
* `Instant.nanos` — nanoseconds since 1970, `Instant.nanos?` where 64 bits hold them;
* `Instant.since` — the time between two instants, leap seconds counted;
* `Instant.floorTo` — the last multiple of a step that is not after an instant.
-/

namespace LogWatch.Time

/-! ## Dates -/

/-- A day of the proleptic Gregorian calendar. -/
structure Date where
  year : Int
  month : Nat
  day : Nat
deriving Repr, DecidableEq

namespace Date

/-- Every fourth year is a leap year, of the hundreds only every fourth one. -/
def isLeapYear (year : Int) : Bool :=
  year % 4 == 0 && (year % 100 != 0 || year % 400 == 0)

/-- Number of days of a month. -/
def daysInMonth (year : Int) (month : Nat) : Nat :=
  if month = 2 then (if isLeapYear year then 29 else 28)
  else if month = 4 ∨ month = 6 ∨ month = 9 ∨ month = 11 then 30
  else 31

/-- Is there such a day? -/
def isValid (d : Date) : Bool :=
  1 ≤ d.month && d.month ≤ 12 && 1 ≤ d.day && d.day ≤ daysInMonth d.year d.month

/-- Days since 1970-01-01.  Years are counted from March, so that the leap day ends a year. -/
def dayNumber (d : Date) : Int :=
  let year : Int := if d.month ≤ 2 then d.year - 1 else d.year
  let era := year / 400
  let ofEra := year - era * 400
  let month : Nat := if d.month > 2 then d.month - 3 else d.month + 9
  let ofYear : Nat := (153 * month + 2) / 5 + d.day - 1
  let day := ofEra * 365 + ofEra / 4 - ofEra / 100 + ofYear
  era * 146097 + day - 719468

/-- The day a number of days after 1970-01-01. -/
def ofDayNumber (n : Int) : Date :=
  let z := n + 719468
  let era := z / 146097
  let day := z - era * 146097
  let ofEra := (day - day / 1460 + day / 36524 - day / 146096) / 365
  let ofYear := day - (365 * ofEra + ofEra / 4 - ofEra / 100)
  let month := (5 * ofYear + 2) / 153
  let dayOfMonth := ofYear - (153 * month + 2) / 5 + 1
  let civil := if month < 10 then month + 3 else month - 9
  ⟨ofEra + era * 400 + (if civil ≤ 2 then 1 else 0), civil.toNat, dayOfMonth.toNat⟩

end Date

/-! ## Instants -/

/-- Seconds since the beginning of 1970 and nanoseconds within the second. -/
structure Instant where
  seconds : Int
  nanos : Nat
deriving Repr, DecidableEq, Inhabited

/-- Nanoseconds in a second. -/
def nanosPerSecond : Nat := 1000000000

namespace Instant

/-- Earlier seconds come first, within a second the smaller fraction. -/
def lt (a b : Instant) : Prop :=
  a.seconds < b.seconds ∨ (a.seconds = b.seconds ∧ a.nanos < b.nanos)

instance : LT Instant := ⟨lt⟩

instance (a b : Instant) : Decidable (a < b) :=
  inferInstanceAs (Decidable (a.seconds < b.seconds ∨ (a.seconds = b.seconds ∧ a.nanos < b.nanos)))

instance : LE Instant := ⟨fun a b => ¬ b < a⟩

instance (a b : Instant) : Decidable (a ≤ b) :=
  inferInstanceAs (Decidable (¬ b < a))

/-- Nanoseconds since the beginning of 1970.  A leap second shares them with the second after
it. -/
def toNanos (t : Instant) : Int :=
  t.seconds * nanosPerSecond + t.nanos

/-- The instant a number of nanoseconds after the beginning of 1970. -/
def ofNanos (n : Int) : Instant :=
  ⟨n / nanosPerSecond, (n % nanosPerSecond).toNat⟩

/-- Nanoseconds since the beginning of 1970 where a signed word of 64 bits holds them. -/
def nanos? (t : Instant) : Option Int :=
  let n := t.toNanos
  if -0x8000000000000000 ≤ n ∧ n < 0x8000000000000000 then some n else none

/-- Nanoseconds since the beginning of 1970, cut off at the ends of a signed word of 64 bits. -/
def clampedNanos (t : Instant) : Int :=
  let n := t.toNanos
  if n < -0x8000000000000000 then -0x8000000000000000
  else if 0x8000000000000000 ≤ n then 0x7fffffffffffffff else n

/-- Is this a leap second? -/
def isLeap (t : Instant) : Bool :=
  nanosPerSecond ≤ t.nanos

/-- Nanoseconds from `earlier` to `later`.  A leap second between two times of day counts as a
second of its own. -/
def since (later earlier : Instant) : Int :=
  let day : Int := 86400
  let a := later.seconds % day
  let b := earlier.seconds % day
  let leap : Int :=
    if a > b then (if earlier.isLeap then 1 else 0)
    else if a < b then (if later.isLeap then -1 else 0)
    else 0
  (later.seconds - earlier.seconds + leap) * nanosPerSecond + later.nanos - earlier.nanos

/-- The instant a number of whole seconds later. -/
def addSeconds (t : Instant) (n : Int) : Instant :=
  if n = 0 then t
  else if t.isLeap then
    if n > 0 then ⟨t.seconds + n, t.nanos - nanosPerSecond⟩
    else ⟨t.seconds + 1 + n, t.nanos - nanosPerSecond⟩
  else ⟨t.seconds + n, t.nanos⟩

/-- The last multiple of `step` seconds that is not after an instant; an instant whose nanoseconds
do not fit a signed word of 64 bits is left as it is. -/
def floorTo (step : Nat) (t : Instant) : Instant :=
  match t.nanos? with
  | none => t
  | some n =>
    let excess := n % (step * nanosPerSecond : Nat)
    if t.isLeap ∧ excess < nanosPerSecond then ⟨t.seconds, t.nanos - excess.toNat⟩
    else ofNanos (n - excess)

/-! ## Reading the calendar -/

/-- The day of an instant. -/
def date (t : Instant) : Date :=
  Date.ofDayNumber (t.seconds / 86400)

/-- Second of the day. -/
def secondOfDay (t : Instant) : Nat :=
  (t.seconds % 86400).toNat

/-- Hour of the day. -/
def hour (t : Instant) : Nat :=
  t.secondOfDay / 3600

/-- Day of the week, counted from Monday as zero; 1970 began on a Thursday. -/
def weekday (t : Instant) : Nat :=
  ((t.seconds / 86400 + 3) % 7).toNat

/-- Saturday or Sunday. -/
def isWeekend (t : Instant) : Bool :=
  5 ≤ t.weekday

/-- The first instant of the calendar. -/
def earliest : Instant :=
  ⟨(Date.mk (-262143) 1 1).dayNumber * 86400, 0⟩

/-- The last instant of the calendar. -/
def latest : Instant :=
  ⟨(Date.mk 262142 12 31).dayNumber * 86400 + 86399, nanosPerSecond - 1⟩

end Instant

end LogWatch.Time

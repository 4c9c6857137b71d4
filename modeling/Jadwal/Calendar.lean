import Jadwal.Schema

/-!
# Dates and wall clocks

Calendar dates as the request carries them, their instants, and the wall
clock of an activity's country.  Stored start and end instants are the
local wall clock tagged as UTC, so they are compared with `nowInTimezone`,
never with the raw clock.
-/

namespace Jadwal

/-- A `YYYY-MM-DD` string. -/
structure CivilDate where
  year : Int
  month : Int
  day : Int
  deriving DecidableEq, Repr

namespace CivilDate

/-- Strings of one width compare as their numbers do. -/
def key (d : CivilDate) : Int := d.year * 10000 + d.month * 100 + d.day

/-- Days since 1970-01-01 in the proleptic Gregorian calendar. -/
def toDays (d : CivilDate) : Int :=
  let y := if d.month ≤ 2 then d.year - 1 else d.year
  let era := y / 400
  let yoe := y - era * 400
  let doy := (153 * (d.month + (if d.month > 2 then -3 else 9)) + 2) / 5 + d.day - 1
  let doe := yoe * 365 + yoe / 4 - yoe / 100 + doy
  era * 146097 + doe - 719468

/-- The date of a day number. -/
def ofDays (days : Int) : CivilDate :=
  let z := days + 719468
  let era := z / 146097
  let doe := z - era * 146097
  let yoe := (doe - doe / 1460 + doe / 36524 - doe / 146096) / 365
  let doy := doe - (365 * yoe + yoe / 4 - yoe / 100)
  let mp := (5 * doy + 2) / 153
  let month := if mp < 10 then mp + 3 else mp - 9
  ⟨yoe + era * 400 + (if month ≤ 2 then 1 else 0), month,
    doy - (153 * mp + 2) / 5 + 1⟩

/-- The last day of the month (day 0 of the next one). -/
def lastDayOfMonth (year month : Int) : Int :=
  let next : CivilDate := if month = 12 then ⟨year + 1, 1, 1⟩ else ⟨year, month + 1, 1⟩
  (ofDays (next.toDays - 1)).day

/-- The date exists; `Date.UTC` moves the years 0 to 99 into the 1900s. -/
def isValid (d : CivilDate) : Bool :=
  100 ≤ d.year ∧ 1 ≤ d.month ∧ d.month ≤ 12 ∧ 1 ≤ d.day ∧
    d.day ≤ lastDayOfMonth d.year d.month

/-- Adds whole months, clamped to the last day of the target month. -/
def addMonthsClamped (d : CivilDate) (months : Int) : CivilDate :=
  let index := d.year * 12 + (d.month - 1) + months
  let year := index / 12
  let month := index % 12 + 1
  ⟨year, month, min d.day (lastDayOfMonth year month)⟩

/-- Midnight of the date, tagged as UTC. -/
def midnight (d : CivilDate) : Instant := d.toDays * Jadwal.day

def weekday (d : CivilDate) : String :=
  match (d.toDays + 4) % 7 with
  | 0 => "SUN"
  | 1 => "MON"
  | 2 => "TUE"
  | 3 => "WED"
  | 4 => "THU"
  | 5 => "FRI"
  | _ => "SAT"

end CivilDate

/-- The UTC date of an instant. -/
def utcDate (t : Instant) : CivilDate := .ofDays (t / day)

/-- `buildDatetime(date, HH:MM)`. -/
def buildDatetime (date : CivilDate) (minutes : Nat) : Instant :=
  date.midnight + minutes * minute

/-- The wall clock of the zone as an instant tagged UTC, at the precision
of a second; an unknown zone falls back to the raw clock. -/
def nowInTimezone (env : Env) (tz : String) (now : Instant) : Instant :=
  match env.zoneOffset tz now with
  | some offset => (now + offset) / second * second
  | none => now

def todayInTimezone (env : Env) (tz : String) (now : Instant) : CivilDate :=
  match env.zoneOffset tz now with
  | some offset => utcDate (now + offset)
  | none => utcDate now

/-- Minutes after midnight on the zone's wall clock; an unknown zone makes
every slot of today past. -/
def minutesInTimezone (env : Env) (tz : String) (now : Instant) : Nat :=
  match env.zoneOffset tz now with
  | some offset => ((now + offset) % day / minute).toNat
  | none => 23 * 60 + 59

example : (CivilDate.mk 2026 8 31).addMonthsClamped 6 = ⟨2027, 2, 28⟩ := by decide

example : CivilDate.ofDays (CivilDate.mk 2024 2 29).toDays = ⟨2024, 2, 29⟩ := by decide

end Jadwal

import AccessGateway.Time.HttpDate

/-!
# Readings of clocks

A clock tells an instant by a date and a time of day; clocks of other zones tell the same instant by
other ones.  The date of a message header is that of UTC, from whichever clock the instant was
read.
-/

set_option autoImplicit false

namespace AccessGateway

/-- What a clock shows, and by how many seconds it is ahead of UTC. -/
structure Reading where
  date : Calendar.Date
  hour : Nat
  minute : Nat
  second : Nat
  ahead : Int
deriving DecidableEq, Repr

namespace Reading

/-- A day of the calendar and a time of the day. -/
def isValid (r : Reading) : Bool :=
  r.date.isValid && r.hour < 24 && r.minute < 60 && r.second < 60

/-- The instant at which a clock shows this. -/
def instant (r : Reading) : Timestamp :=
  r.date.toDays * 86400 + (r.hour * 3600 + r.minute * 60 + r.second : Nat) - r.ahead

/-- What a clock shows at an instant. -/
def of (t : Timestamp) (ahead : Int) : Reading :=
  let second := ((t + ahead) % 86400).toNat
  { date := .ofDays ((t + ahead) / 86400)
    hour := second / 3600
    minute := second / 60 % 60
    second := second % 60
    ahead }

/-- What a clock of UTC shows at an instant. -/
def utc (t : Timestamp) : Reading := of t 0

end Reading

namespace HttpDate

/-- The written form of what a clock of UTC shows. -/
def write (r : Reading) : String :=
  dayNames.getD (Calendar.weekday r.date.toDays) "" ++ ", " ++ Text.padded 2 r.date.day ++ " " ++
    monthNames.getD (r.date.month - 1) "" ++ " " ++ yearText r.date.year ++ " " ++
    Text.padded 2 r.hour ++ ":" ++ Text.padded 2 r.minute ++ ":" ++ Text.padded 2 r.second ++ " GMT"

/-- The written form of an instant that was read from any clock. -/
def formatReading (r : Reading) : String := write (.utc r.instant)

/-- The year of a timestamp. -/
def yearOf (t : Timestamp) : Int := (Reading.utc t).date.year

end HttpDate
end AccessGateway

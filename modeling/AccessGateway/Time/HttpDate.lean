import AccessGateway.Text.Blank
import AccessGateway.Text.Number
import AccessGateway.Time.Calendar

/-!
# Dates in message headers

A timestamp counts seconds from the start of 1970, UTC.  It is written in one form,
`Wed, 01 Jan 2020 00:00:01 GMT`, and read from three: this one, the form with a two-digit year
(`Sunday, 06-Nov-94 08:49:37 GMT`) and the form of a C clock (`Sun Nov  6 08:49:37 1994`).  The
last two are first brought into the first one.  The name of the day is never compared with the
date.  A warning may close with a date in quotes.
-/

set_option autoImplicit false

namespace AccessGateway

/-- Seconds from the start of 1970, UTC. -/
abbrev Timestamp := Int

namespace HttpDate

/-- The three-letter names of the months, from January on. -/
def monthNames : List String :=
  ["Jan", "Feb", "Mar", "Apr", "May", "Jun", "Jul", "Aug", "Sep", "Oct", "Nov", "Dec"]

/-- The three-letter names of the days of the week, from Sunday on. -/
def dayNames : List String := ["Sun", "Mon", "Tue", "Wed", "Thu", "Fri", "Sat"]

/-- The timestamps that have a date, with years from -9999 to 9999. -/
def inRange (t : Timestamp) : Bool := -377705116800 ≤ t && t ≤ 253402300799

/-- A year with at least four digits. -/
def yearText (y : Int) : String :=
  if y < 0 then "-" ++ Text.padded 4 y.natAbs else Text.padded 4 y.natAbs

/-- The written form of a timestamp (`format_http_date`). -/
def format (t : Timestamp) : String :=
  let days := t / 86400
  let second := (t % 86400).toNat
  let date := Calendar.Date.ofDays days
  dayNames.getD (Calendar.weekday days) "" ++ ", " ++ Text.padded 2 date.day ++ " " ++
    monthNames.getD (date.month - 1) "" ++ " " ++ yearText date.year ++ " " ++
    Text.padded 2 (second / 3600) ++ ":" ++ Text.padded 2 (second / 60 % 60) ++ ":" ++
    Text.padded 2 (second % 60) ++ " GMT"

/-- Exactly `width` decimal digits at the front of a text. -/
def takeDigits? (width : Nat) (cs : List Char) : Option (Nat × List Char) :=
  if (cs.take width).length = width then
    (Text.digits? (cs.take width)).map (·, cs.drop width)
  else none

/-- The name of a month at the front of a text, as its number. -/
def takeMonth? (cs : List Char) : Option (Nat × List Char) :=
  (monthNames.zipIdx 1).findSome? fun (name, number) =>
    (name.toList.isPrefixOf? cs).map (number, ·)

/-- Four digits of a year at the front of a text, with or without a sign. -/
def takeYear? : List Char → Option (Int × List Char)
  | '-' :: cs => (takeDigits? 4 cs).map fun (n, rest) => (-(n : Int), rest)
  | '+' :: cs => (takeDigits? 4 cs).map fun (n, rest) => ((n : Int), rest)
  | cs => (takeDigits? 4 cs).map fun (n, rest) => ((n : Int), rest)

/-- A text without the mark it has to start with. -/
def expect? (mark : String) (cs : List Char) : Option (List Char) := mark.toList.isPrefixOf? cs

/-- Reads `01 Jan 2020 00:00:01 GMT` to the end of the text. -/
def parseDayTime? (cs : List Char) : Option Timestamp := do
  let (day, cs) ← takeDigits? 2 cs
  let cs ← expect? " " cs
  let (month, cs) ← takeMonth? cs
  let cs ← expect? " " cs
  let (year, cs) ← takeYear? cs
  let cs ← expect? " " cs
  let (hour, cs) ← takeDigits? 2 cs
  let cs ← expect? ":" cs
  let (minute, cs) ← takeDigits? 2 cs
  let cs ← expect? ":" cs
  let (second, cs) ← takeDigits? 2 cs
  let cs ← expect? " GMT" cs
  let date : Calendar.Date := ⟨year, month, day⟩
  if cs.isEmpty && date.isValid && hour < 24 && minute < 60 && second < 60 then
    some (date.toDays * 86400 + (hour * 3600 + minute * 60 + second : Nat))
  else none

/-- `06-Nov-94 08:49:37 GMT` with its year in full (`from_rfc850`); years below 70 belong to the
2000s. -/
def widenYear? (cs : List Char) : Option (List Char) := do
  let (date, clock) ← Text.cut? ' ' cs
  match Text.fields '-' date with
  | [day, month, year] =>
    if (String.ofList year).utf8ByteSize ≠ 2 then none
    else
      let short ← Text.word? UInt16.size year
      let full := if short < 70 then 2000 + short else 1900 + short
      some (day ++ ' ' :: month ++ ' ' :: (Text.decimal full).toList ++ ' ' :: clock)
  | _ => none

/-- `Sun Nov  6 08:49:37 1994` with its parts in the order of the usual form (`from_asctime`). -/
def reorder? (cs : List Char) : Option (List Char) :=
  match Text.words cs with
  | [_, month, day, clock, year] => do
    let day ← Text.word? UInt8.size day
    some ((Text.padded 2 day).toList ++ ' ' :: month ++ ' ' :: year ++ ' ' :: clock ++
      " GMT".toList)
  | _ => none

/-- The timestamp of a date in one of the three forms, with any blanks around it
(`parse_http_date`). -/
def parse? (value : String) : Option Timestamp :=
  let cs := Text.trim value.toList
  match Text.cutText? ", ".toList cs with
  | some (_, rest) =>
    if rest.contains '-' then (widenYear? rest).bind parseDayTime? else parseDayTime? rest
  | none => (reorder? cs).bind parseDayTime?

/-- The date that closes a warning of the form `code agent "text" "date"` (`warning_date`). -/
def ofWarning? (value : String) : Option Timestamp := do
  let (code, rest) ← Text.cut? ' ' (Text.trim value.toList)
  let (_, quoted) ← Text.cut? ' ' rest
  if code.length = 3 && code.all Char.isDigit then
    let body ← Text.stripEnd? ['"'] quoted
    let (text, date) ← Text.cutLast? '"' body
    if text.head? = some '"' && (Text.trimEnd text).getLast? = some '"' then
      parse? (String.ofList date)
    else none
  else none

end HttpDate
end AccessGateway

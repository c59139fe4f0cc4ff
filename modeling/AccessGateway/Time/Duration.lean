import AccessGateway.Text.Number

/-!
# Instants and durations

Both are counted in nanoseconds: an instant from a moment before the program started, a duration
from nothing.  A duration is written in the largest unit of which it holds at least one, with as
many decimal places as it needs.
-/

set_option autoImplicit false

namespace AccessGateway

/-- Nanoseconds on a clock that never goes back. -/
abbrev Instant := Nat

/-- A span of time in nanoseconds. -/
abbrev Duration := Nat

namespace Duration

/-- A number of whole seconds. -/
def ofSeconds (n : Nat) : Duration := n * 1000000000

/-- A number of whole milliseconds. -/
def ofMillis (n : Nat) : Duration := n * 1000000

/-- The whole milliseconds of a span. -/
def millis (d : Duration) : Nat := d / 1000000

/-- A number of units with `places` decimal places, trailing zeros left out. -/
def decimalText (whole fraction places : Nat) (unit : String) : String :=
  let digits := (Text.padded places fraction).toList
  let kept := (digits.reverse.dropWhile (· == '0')).reverse
  let point := if kept.isEmpty then [] else '.' :: kept
  Text.decimal whole ++ String.ofList point ++ unit

/-- The text of a span: `1.5s`, `5ms`, `0ns`. -/
def text (d : Duration) : String :=
  if d ≥ 1000000000 then decimalText (d / 1000000000) (d % 1000000000) 9 "s"
  else if d ≥ 1000000 then decimalText (d / 1000000) (d % 1000000) 6 "ms"
  else if d ≥ 1000 then decimalText (d / 1000) (d % 1000) 3 "µs"
  else decimalText d 0 0 "ns"

end Duration
end AccessGateway

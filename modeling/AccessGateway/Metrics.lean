import AccessGateway.Text.Number
import AccessGateway.Text.Split

/-!
# Metrics

What happens is recorded as a row of events.  Counters count the events of one kind and labels,
gauges show the last value that was set.  Both are written as one line per series.
-/

set_option autoImplicit false

namespace AccessGateway

/-- Something that a counter counts or a gauge shows. -/
inductive MetricEvent where
  /-- A request was answered. -/
  | request (mapping method : String) (status : Nat)
  /-- A mapping refused a request. -/
  | denial (mapping flow : String)
  /-- An identity provider was called. -/
  | identityCall (flow outcome : String)
  /-- A circuit changed its state to the one with this code. -/
  | circuit (mapping : String) (code : Nat)
  /-- This many sessions are held. -/
  | sessions (count : Nat)
deriving DecidableEq, Repr

/-- The events so far, in order. -/
abbrev Metrics := List MetricEvent

namespace Metrics

/-- How many events equal to `e` were recorded. -/
def count (m : Metrics) (e : MetricEvent) : Nat := List.count e m

/-- The code that the circuit gauge of a mapping shows; nothing before its first change. -/
def circuitState? (m : Metrics) (mapping : String) : Option Nat :=
  (m.filterMap fun
    | .circuit name code => if name = mapping then some code else none
    | _ => none).getLast?

/-- The number that the session gauge shows; nothing before the first session. -/
def activeSessions? (m : Metrics) : Option Nat :=
  (m.filterMap fun
    | .sessions n => some n
    | _ => none).getLast?

/-- How many requests a mapping answered. -/
def requestsOf (m : Metrics) (mapping : String) : Nat :=
  m.countP fun
    | .request name _ _ => name = mapping
    | _ => false

/-- A label's value between its quotes. -/
def escape (s : String) : String :=
  String.ofList (s.toList.flatMap fun c =>
    if c = '\\' then ['\\', '\\']
    else if c = '"' then ['\\', '"']
    else if c = '\n' then ['\\', 'n']
    else [c])

/-- One line: a name, its labels, and a number. -/
def line (name : String) (labels : List (String × String)) (value : Nat) : String :=
  let pairs := labels.map fun (key, v) => key ++ "=\"" ++ escape v ++ "\""
  let inner := if labels.isEmpty then "" else "\x7b" ++ Text.join "," pairs ++ "\x7d"
  name ++ inner ++ " " ++ Text.decimal value

/-- The lines that the series of an event contribute. -/
def linesOf (m : Metrics) : MetricEvent → List String
  | .request mapping method status =>
    [line "gateway_requests_total"
        [("mapping", mapping), ("method", method), ("status", Text.decimal status)]
        (m.count (.request mapping method status)),
      line "gateway_request_duration_seconds_count" [("mapping", mapping)] (m.requestsOf mapping)]
  | .denial mapping flow =>
    [line "gateway_denials_total" [("mapping", mapping), ("flow", flow)]
      (m.count (.denial mapping flow))]
  | .identityCall flow outcome =>
    [line "gateway_identity_calls_total" [("flow", flow), ("outcome", outcome)]
      (m.count (.identityCall flow outcome))]
  | .circuit mapping _ =>
    [line "gateway_circuit_state" [("mapping", mapping)] ((m.circuitState? mapping).getD 0)]
  | .sessions _ => [line "gateway_sessions_active" [] (m.activeSessions?.getD 0)]

/-- The lines of all series, each once. -/
def lines (m : Metrics) : List String := (m.flatMap m.linesOf).eraseDups

end Metrics
end AccessGateway

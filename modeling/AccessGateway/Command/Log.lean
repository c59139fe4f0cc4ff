import AccessGateway.Text.Ascii
import AccessGateway.Text.Number
import AccessGateway.Text.Split

/-!
# Log levels

A filter is a row of directives with commas between them: `target=level`, a level for everything,
or a target at its finest level.  Of the directives that a line's target starts with, the longest
one decides, and among equals the last.  Directives that cannot be read are passed over.
-/

set_option autoImplicit false

namespace AccessGateway

/-- How weighty a line is. -/
inductive LogLevel where
  | error
  | warn
  | info
  | debug
  | trace
deriving DecidableEq, Repr

namespace LogLevel

/-- The place of a level, from the weightiest on. -/
def rank : LogLevel → Nat
  | error => 1
  | warn => 2
  | info => 3
  | debug => 4
  | trace => 5

/-- The name of a level in a line. -/
def text : LogLevel → String
  | error => "ERROR"
  | warn => "WARN"
  | info => "INFO"
  | debug => "DEBUG"
  | trace => "TRACE"

/-- Reads the finest rank that is shown: a number or a name in any case, or nothing for all. -/
def finest? (s : String) : Option Nat :=
  match Text.digits? s.toList with
  | some n => if n ≤ 5 then some n else none
  | none =>
    if s = "" then some 5
    else if Text.eqIgnoreCase s "off" then some 0
    else ([error, warn, info, debug, trace].find? fun l => Text.eqIgnoreCase s l.text).map rank

end LogLevel

/-- A line of the log. -/
structure LogLine where
  level : LogLevel
  message : String
deriving DecidableEq, Repr

/-- The lines of which targets are shown, and down to which rank. -/
structure LogDirective where
  target : String
  finest : Nat
deriving DecidableEq, Repr

namespace LogDirective

/-- Reads a directive. -/
def parse? (text : String) : Option LogDirective :=
  match Text.cut? '=' text.toList with
  | some (target, level) =>
    (LogLevel.finest? (String.ofList level)).map (⟨String.ofList target, ·⟩)
  | none =>
    if text = "" then none
    else match LogLevel.finest? text with
      | some finest => some ⟨"", finest⟩
      | none => some ⟨text, 5⟩

/-- Reads a filter. -/
def parseAll (text : String) : List LogDirective :=
  (Text.fields ',' text.toList).filterMap fun d => parse? (String.ofList d)

/-- The finest rank that a filter shows of a target. -/
def finestFor (filter : List LogDirective) (target : String) : Nat :=
  let fitting := filter.filter fun d => d.target.toList.isPrefixOf target.toList
  let best := fitting.foldl (fun best d =>
    match best with
    | some b => if b.target.length ≤ d.target.length then some d else some b
    | none => some d) (none : Option LogDirective)
  best.elim 0 (·.finest)

end LogDirective

/-- The target of the gateway's own lines. -/
def LogLine.target : String := "waf_gateway"

/-- The lines that are shown when the settings name a level. -/
def LogLine.shown (level : String) (lines : List LogLine) : List LogLine :=
  let filter := LogDirective.parseAll (LogLine.target ++ "=" ++ level ++ ",tower_http=info")
  let finest := LogDirective.finestFor filter LogLine.target
  lines.filter fun line => line.level.rank ≤ finest

end AccessGateway

import AccessGateway.Metrics
import AccessGateway.Time.Duration

/-!
# The circuit breaker

A breaker guards the calls to one backend.  While it is closed every call is admitted, and failures
are counted up to the next success.  When there are too many it opens: no call is admitted until
the cooldown is over.  Then one trial call is admitted, and its outcome closes or opens the circuit
again.  Calls hold a permit, which outlives changes of the state and says whether it is the trial's.
The instant of opening is kept in whole milliseconds since the breaker was made.
-/

set_option autoImplicit false

namespace AccessGateway

/-- The state of a circuit. -/
inductive CircuitState where
  | closed
  | opened
  | halfOpen
deriving DecidableEq, Repr

/-- The number that stands for a state in metrics. -/
def CircuitState.code : CircuitState → Nat
  | .closed => 0
  | .opened => 1
  | .halfOpen => 2

/-- The limits of a breaker. -/
structure BreakerSettings where
  /-- How many failures in a row open the circuit. -/
  maxFailures : Nat
  /-- How long a call may take. -/
  callTimeout : Duration
  /-- How long the circuit stays open before a trial. -/
  resetTimeout : Duration
deriving DecidableEq, Repr

/-- A breaker (`CircuitBreaker`). -/
structure Breaker where
  state : CircuitState
  failures : Nat
  openedAt : Nat
  createdAt : Instant
deriving DecidableEq, Repr

/-- The right to make one call (`CallPermit`). -/
structure Permit where
  trial : Bool
deriving DecidableEq, Repr

namespace Breaker

/-- A closed breaker without failures. -/
def new (now : Instant) : Breaker := ⟨.closed, 0, 0, now⟩

/-- Whether the cooldown is over. -/
def cooledDown (b : Breaker) (s : BreakerSettings) (now : Instant) : Bool :=
  s.resetTimeout ≤ (now - b.createdAt) - Duration.ofMillis b.openedAt

/-- Asks for a permit (`try_acquire`). -/
def tryAcquire (b : Breaker) (s : BreakerSettings) (now : Instant) : Breaker × Option Permit :=
  match b.state with
  | .closed => (b, some ⟨false⟩)
  | .halfOpen => (b, none)
  | .opened =>
    if b.cooledDown s now then ({ b with state := .halfOpen }, some ⟨true⟩) else (b, none)

/-- Notes when the circuit opened (`mark_opened`). -/
def markOpened (b : Breaker) (now : Instant) : Breaker :=
  { b with openedAt := Duration.millis (now - b.createdAt) }

/-- Ends the trial with the given state, if there is one (`transition`). -/
def endTrial (b : Breaker) (next : CircuitState) : Breaker :=
  if b.state = .halfOpen then { b with state := next } else b

/-- Records that the call of a permit succeeded (`on_success`). -/
def onSuccess (b : Breaker) (p : Permit) : Breaker :=
  if p.trial then { b with failures := 0 }.endTrial .closed
  else if b.state = .closed then { b with failures := 0 }
  else b

/-- Records that the call of a permit failed (`on_failure`).  The counter is a word of 32 bits. -/
def onFailure (b : Breaker) (s : BreakerSettings) (p : Permit) (now : Instant) : Breaker :=
  if p.trial then (b.markOpened now).endTrial .opened
  else
    let b := { b with failures := (b.failures + 1) % UInt32.size }
    if s.maxFailures ≤ b.failures ∧ b.state = .closed then
      { b.markOpened now with state := .opened }
    else b

/-- Records the outcome of a permit's call. -/
def record (b : Breaker) (s : BreakerSettings) (p : Permit) (success : Bool) (now : Instant) :
    Breaker :=
  if success then b.onSuccess p else b.onFailure s p now

/-- Takes a permit back whose call has no outcome (`on_abandoned`). -/
def onAbandoned (b : Breaker) (p : Permit) (now : Instant) : Breaker :=
  if p.trial then (b.markOpened now).endTrial .opened else b

/-- The event of a change of state. -/
def changes (name : String) (before after : Breaker) : Metrics :=
  if before.state = after.state then [] else [.circuit name after.state.code]

end Breaker
end AccessGateway

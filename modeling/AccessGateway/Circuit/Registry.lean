import AccessGateway.Circuit.Breaker

/-!
# Breakers by target

One breaker per target, made when it is first asked for.  Permits know the target they were given
for.  A guarded call asks for a permit, and records its outcome with it.
-/

set_option autoImplicit false

namespace AccessGateway

/-- The breakers made so far, with their common limits (`BreakerRegistry`). -/
structure Breakers where
  settings : BreakerSettings
  entries : List (String × Breaker)
deriving DecidableEq, Repr

/-- A permit for a target. -/
structure TargetPermit where
  target : String
  permit : Permit
deriving DecidableEq, Repr

/-- Why a guarded call gave no value (`BreakerError`). -/
inductive CallError (ε : Type) where
  /-- No permit was given. -/
  | circuitOpen
  /-- The call took too long. -/
  | timedOut (limit : Duration)
  /-- The call failed. -/
  | failed (e : ε)
  /-- The caller gave up before there was an outcome. -/
  | abandoned
deriving DecidableEq, Repr

/-- The wording of an error. -/
def CallError.message {ε : Type} (wording : ε → String) : CallError ε → String
  | .circuitOpen => "circuit breaker is open"
  | .timedOut limit => "call timed out after " ++ limit.text
  | .failed e => wording e
  | .abandoned => "call was given up"

/-- What a call does once it is admitted. -/
inductive CallOutcome (ε α : Type) where
  | value (a : α)
  | failure (e : ε)
  /-- There is no answer within the limit of a call. -/
  | noAnswer
  /-- The caller gives up before there is an answer. -/
  | abandoned
deriving DecidableEq, Repr

namespace Breakers

/-- The registry without breakers. -/
def empty (settings : BreakerSettings) : Breakers := ⟨settings, []⟩

/-- The number of breakers. -/
def size (r : Breakers) : Nat := r.entries.length

/-- The breaker of a target, if it was made. -/
def find? (r : Breakers) (target : String) : Option Breaker :=
  (r.entries.find? (·.1 = target)).map (·.2)

/-- The breaker of a target, made now if need be. -/
def get (r : Breakers) (target : String) (now : Instant) : Breakers × Breaker :=
  match r.find? target with
  | some b => (r, b)
  | none => ({ r with entries := r.entries ++ [(target, Breaker.new now)] }, Breaker.new now)

/-- Puts the new state of a target's breaker. -/
def put (r : Breakers) (target : String) (b : Breaker) : Breakers :=
  { r with entries := r.entries.map fun e => if e.1 = target then (target, b) else e }

/-- Changes the breaker of a target, with the event if its state changed. -/
def update (r : Breakers) (target : String) (now : Instant) (f : Breaker → Breaker) :
    Breakers × Metrics :=
  let (r, b) := r.get target now
  (r.put target (f b), Breaker.changes target b (f b))

/-- Asks for a permit for a target. -/
def acquire (r : Breakers) (target : String) (now : Instant) :
    Breakers × Option TargetPermit × Metrics :=
  let (r, b) := r.get target now
  let (after, permit) := b.tryAcquire r.settings now
  (r.put target after, permit.map (⟨target, ·⟩), Breaker.changes target b after)

/-- Records the outcome of a permit's call. -/
def record (r : Breakers) (p : TargetPermit) (success : Bool) (now : Instant) :
    Breakers × Metrics :=
  r.update p.target now fun b => b.record r.settings p.permit success now

/-- Takes back a permit whose call has no outcome. -/
def abandon (r : Breakers) (p : TargetPermit) (now : Instant) : Breakers × Metrics :=
  r.update p.target now fun b => b.onAbandoned p.permit now

/-- Makes a guarded call (`call_with`): admitted at `now`, over at `later`.  A value that
`isFailure` accepts is handed on, but counts as a failure. -/
def call {ε α : Type} (r : Breakers) (target : String) (now later : Instant)
    (outcome : CallOutcome ε α) (isFailure : α → Bool) :
    Breakers × Except (CallError ε) α × Metrics :=
  match r.acquire target now with
  | (r, none, events) => (r, .error .circuitOpen, events)
  | (r, some permit, events) =>
    match outcome with
    | .value a =>
      let (r, more) := r.record permit (!isFailure a) later
      (r, .ok a, events ++ more)
    | .failure e =>
      let (r, more) := r.record permit false later
      (r, .error (.failed e), events ++ more)
    | .noAnswer =>
      let (r, more) := r.record permit false later
      (r, .error (.timedOut r.settings.callTimeout), events ++ more)
    | .abandoned =>
      let (r, more) := r.abandon permit later
      (r, .error .abandoned, events ++ more)

end Breakers
end AccessGateway

import AccessGateway.Proofs.Circuit.SharedBreaker
import Mathlib.Logic.Function.Basic

/-!
# The breakers of all targets in use

Callers of many targets share one registry.  They look breakers up, ask for permits and hold them,
give them back with an outcome or drop them, and make guarded calls; meanwhile the clock goes on.
`CircuitBoard` is the registry with the clock and the permits that are held, `CircuitBoard.step` one
thing that is done with it, and `CircuitBoard.run` a row of such things.

Everything comes down to two operations of the registry, asking for a permit and taking one back.
What each of them makes of the breaker of any target is said once.

## Results

* `Breakers.Puts` — what an operation makes of the breakers of all targets; `puts_get`,
  `puts_acquire`, `puts_takeBack` — for each operation.
* `Breakers.call_taken` — an admitted call is asking for a permit and giving it back.
* `CircuitBoard.step_acquire_some`, `CircuitBoard.step_call` — steps put together of these two.
-/

set_option autoImplicit false

namespace AccessGateway

/-! ## The registry -/

/-- What a call that was admitted gives its permit back with: whether it succeeded, or nothing if
    the caller gave up. -/
def CallOutcome.verdict {ε α : Type} (isFailure : α → Bool) : CallOutcome ε α → Option Bool
  | .value a => some (!isFailure a)
  | .failure _ | .noAnswer => some false
  | .abandoned => none

namespace Breakers

variable {ε α : Type} {r : Breakers} {target t : String} {now later : Instant}

/-- Takes a permit back: with the outcome of its call, or without one. -/
def takeBack (r : Breakers) (p : TargetPermit) (outcome : Option Bool) (now : Instant) :
    Breakers × Metrics :=
  match outcome with
  | some success => r.record p success now
  | none => r.abandon p now

/-- The targets whose breakers were made, in order. -/
def targets (r : Breakers) : List String := r.entries.map (·.1)

theorem takeBack_eq (r : Breakers) (p : TargetPermit) (outcome : Option Bool) (now : Instant) :
    r.takeBack p outcome now =
      r.update p.target now fun b => b.resolve r.settings p.permit outcome now := by
  cases outcome with
  | none => rfl
  | some success => rfl

/-! ### One breaker for each target -/

theorem get_snd (r : Breakers) (target : String) (now : Instant) :
    (r.get target now).2 = (r.find? target).getD (.new now) := by
  unfold get
  split
  · rename_i b h
    rw [h]
    rfl
  · rename_i h
    rw [h]
    rfl

theorem find?_get :
    (r.get target now).1.find? t =
      if t = target then some (r.get target now).2 else r.find? t := by
  rw [get_snd]
  unfold get
  split
  · rename_i b h
    split
    · rename_i ht
      rw [ht, h]
      rfl
    · rfl
  · rename_i h
    rw [h]
    unfold find? at h ⊢
    rw [Option.map_eq_none_iff] at h
    rw [List.find?_append]
    by_cases ht : t = target
    · subst ht
      simp [h]
    · simp [ht, Ne.symm ht]

theorem find?_put (b : Breaker) :
    (r.put target b).find? t = (r.find? t).map fun old => if t = target then b else old := by
  unfold put find?
  induction r.entries with
  | nil => rfl
  | cons e es ih =>
    rw [List.map_cons, List.find?_cons, List.find?_cons]
    by_cases he : e.1 = t
    · by_cases ht : e.1 = target
      · simp [← he, ht]
      · simp [he, he ▸ ht]
    · by_cases ht : e.1 = target
      · simpa [ht, ht ▸ he] using ih
      · simpa [ht, he] using ih

/-- The breaker of a target that was looked up and put back. -/
theorem find?_put_get (b : Breaker) :
    ((r.get target now).1.put target b).find? t = if t = target then some b else r.find? t := by
  rw [find?_put, find?_get]
  by_cases ht : t = target
  · simp [ht]
  · simp [ht]

/-! ### The row of targets -/

theorem targets_put (b : Breaker) : (r.put target b).targets = r.targets := by
  unfold targets put
  dsimp only
  rw [List.map_map]
  refine List.map_congr_left fun e _ => ?_
  rw [Function.comp_apply]
  split
  · rename_i he
    exact he.symm
  · rfl

theorem find?_eq_none : r.find? target = none ↔ target ∉ r.targets := by
  unfold find? targets
  rw [Option.map_eq_none_iff, List.find?_eq_none, List.mem_map]
  simp only [decide_eq_true_eq, not_exists, not_and]

/-- A breaker is made for a target that has none, behind all others. -/
theorem targets_get :
    (r.get target now).1.targets =
      if target ∈ r.targets then r.targets else r.targets ++ [target] := by
  unfold get
  split
  · rename_i b h
    have hmem : target ∈ r.targets := by
      by_contra hnone
      rw [find?_eq_none.mpr hnone] at h
      cases h
    rw [if_pos hmem]
  · rename_i h
    rw [if_neg (find?_eq_none.mp h)]
    unfold targets
    rw [List.map_append]
    rfl

/-! ### What an operation does to all breakers -/

/-- `r'` is `r` with a breaker put in for one target, in the place of the one that it had or behind
    all others. -/
structure Puts (r : Breakers) (target : String) (b : Breaker) (r' : Breakers) : Prop where
  settings : r'.settings = r.settings
  found : ∀ t, r'.find? t = if t = target then some b else r.find? t
  targets : r'.targets = if target ∈ r.targets then r.targets else r.targets ++ [target]

theorem puts_get (r : Breakers) (target : String) (now : Instant) :
    r.Puts target (r.get target now).2 (r.get target now).1 :=
  ⟨settings_get r target now, fun _ => find?_get, targets_get⟩

theorem puts_put (r : Breakers) (target : String) (now : Instant) (b : Breaker) :
    r.Puts target b ((r.get target now).1.put target b) :=
  ⟨settings_get r target now, fun _ => find?_put_get b, (targets_put b).trans targets_get⟩

theorem puts_acquire (r : Breakers) (target : String) (now : Instant) :
    r.Puts target ((r.get target now).2.tryAcquire r.settings now).1
      (r.acquire target now).1 := by
  rw [← settings_get r target now]
  exact puts_put r target now _

theorem puts_takeBack (r : Breakers) (p : TargetPermit) (outcome : Option Bool) (now : Instant) :
    r.Puts p.target ((r.get p.target now).2.resolve r.settings p.permit outcome now)
      (r.takeBack p outcome now).1 := by
  rw [takeBack_eq]
  exact puts_put r p.target now _

/-! ### What the operations hand on -/

theorem acquire_permit (r : Breakers) (target : String) (now : Instant) :
    (r.acquire target now).2.1 =
      ((r.get target now).2.tryAcquire r.settings now).2.map (⟨target, ·⟩) := by
  rw [← settings_get r target now]
  rfl

/-- A permit is for the target that it was asked for. -/
theorem target_of_acquire {p : TargetPermit} (h : (r.acquire target now).2.1 = some p) :
    p.target = target := by
  rw [acquire_permit] at h
  obtain ⟨permit, -, rfl⟩ := Option.map_eq_some_iff.mp h
  rfl

theorem acquire_events (r : Breakers) (target : String) (now : Instant) :
    (r.acquire target now).2.2 =
      Breaker.changes target (r.get target now).2
        ((r.get target now).2.tryAcquire r.settings now).1 := by
  rw [← settings_get r target now]
  rfl

theorem takeBack_events (p : TargetPermit) (outcome : Option Bool) :
    (r.takeBack p outcome now).2 =
      Breaker.changes p.target (r.get p.target now).2
        ((r.get p.target now).2.resolve r.settings p.permit outcome now) := by
  rw [takeBack_eq]
  rfl

/-- A call that is admitted is asking for a permit and giving it back. -/
theorem call_taken {p : TargetPermit} (h : (r.acquire target now).2.1 = some p) (later : Instant)
    (outcome : CallOutcome ε α) (isFailure : α → Bool) :
    r.call target now later outcome isFailure =
      let back := (r.acquire target now).1.takeBack p (outcome.verdict isFailure) later
      (back.1, outcome.result r.settings.callTimeout, (r.acquire target now).2.2 ++ back.2) := by
  have hresult := call_admitted h later outcome isFailure
  unfold call at hresult ⊢
  rcases ha : r.acquire target now with ⟨r', permit, events⟩
  rw [ha] at h hresult
  cases h
  dsimp only at hresult ⊢
  cases outcome with
  | value a => rfl
  | failure e => rfl
  | noAnswer => exact Prod.ext rfl (Prod.ext hresult rfl)
  | abandoned => rfl

end Breakers

/-! ## Runs -/

/-- The breakers of all targets, with the clock and the permits that callers hold, each at a place
    of its own. -/
structure CircuitBoard where
  breakers : Breakers
  now : Instant
  held : Nat → Option TargetPermit

/-- What is done with the breakers. -/
inductive BoardStep (ε α : Type) where
  /-- The breaker of a target is looked up. -/
  | get (target : String)
  /-- A permit for a target is asked for.  If there is one, it is held at the given place, and a
      permit that was held there is dropped. -/
  | acquire (place : Nat) (target : String)
  /-- The permit at a place comes back with the outcome of its call. -/
  | record (place : Nat) (success : Bool)
  /-- The permit at a place is dropped without an outcome. -/
  | drop (place : Nat)
  /-- A guarded call, which takes a span of time if it is admitted. -/
  | call (target : String) (span : Duration) (outcome : CallOutcome ε α) (isFailure : α → Bool)
  /-- Time goes by. -/
  | sleep (span : Duration)

/-- What a caller sees of what was done. -/
inductive BoardAnswer (ε α : Type) where
  | seen (b : Breaker)
  | given (permit : Option TargetPermit)
  | takenBack (p : TargetPermit)
  | called (result : Except (CallError ε) α)

namespace CircuitBoard

variable {ε α : Type}

/-- The registry without breakers, and nobody holds a permit. -/
def start (settings : BreakerSettings) (now : Instant) : CircuitBoard :=
  ⟨.empty settings, now, fun _ => none⟩

/-- Takes back the permit at a place, if there is one. -/
def release (c : CircuitBoard) (place : Nat) (outcome : Option Bool) :
    CircuitBoard × List (String × BoardAnswer ε α) × Metrics :=
  match c.held place with
  | none => (c, [], [])
  | some p =>
    let (breakers, events) := c.breakers.takeBack p outcome c.now
    ({ c with breakers, held := Function.update c.held place none },
      [(p.target, .takenBack p)], events)

/-- One thing that is done, with the answers, each under the target that it is about, and the events
    that are recorded. -/
def step (c : CircuitBoard) : BoardStep ε α →
    CircuitBoard × List (String × BoardAnswer ε α) × Metrics
  | .get target =>
    let (breakers, b) := c.breakers.get target c.now
    ({ c with breakers }, [(target, .seen b)], [])
  | .acquire place target =>
    match c.breakers.acquire target c.now with
    | (breakers, none, events) => ({ c with breakers }, [(target, .given none)], events)
    | (breakers, some p, events) =>
      let (c, answers, more) := { c with breakers }.release place none
      ({ c with held := Function.update c.held place (some p) },
        (target, .given (some p)) :: answers, events ++ more)
  | .record place success => c.release place (some success)
  | .drop place => c.release place none
  | .call target span outcome isFailure =>
    match c.breakers.call target c.now (c.now + span) outcome isFailure with
    | (breakers, .error .circuitOpen, events) =>
      ({ c with breakers }, [(target, .called (.error .circuitOpen))], events)
    | (breakers, result, events) =>
      ({ c with breakers, now := c.now + span }, [(target, .called result)], events)
  | .sleep span => ({ c with now := c.now + span }, [], [])

/-- The board after a row of steps. -/
def run (c : CircuitBoard) (steps : List (BoardStep ε α)) : CircuitBoard :=
  steps.foldl (fun c e => (c.step e).1) c

/-- The answers to a row of steps, step by step. -/
def answers (c : CircuitBoard) : List (BoardStep ε α) → List (List (String × BoardAnswer ε α))
  | [] => []
  | e :: es => (c.step e).2.1 :: (c.step e).1.answers es

/-- The events that a row of steps records. -/
def events (c : CircuitBoard) : List (BoardStep ε α) → Metrics
  | [] => []
  | e :: es => (c.step e).2.2 ++ (c.step e).1.events es

variable {c : CircuitBoard} {place : Nat} {target : String}

theorem run_append (c : CircuitBoard) (before after : List (BoardStep ε α)) :
    c.run (before ++ after) = (c.run before).run after := List.foldl_append

theorem events_append (c : CircuitBoard) (before after : List (BoardStep ε α)) :
    c.events (before ++ after) = c.events before ++ (c.run before).events after := by
  induction before generalizing c with
  | nil => rfl
  | cons e es ih =>
    rw [List.cons_append, events, ih, events, List.append_assoc]
    rfl

theorem step_acquire_none {e : BoardStep ε α} (he : e = .acquire place target)
    (h : (c.breakers.acquire target c.now).2.1 = none) :
    c.step e = ({ c with breakers := (c.breakers.acquire target c.now).1 },
      [(target, .given none)], (c.breakers.acquire target c.now).2.2) := by
  subst he
  unfold step
  dsimp only
  rcases ha : c.breakers.acquire target c.now with ⟨breakers, permit, events⟩
  rw [ha] at h
  cases h
  rfl

theorem step_acquire_some {e : BoardStep ε α} (he : e = .acquire place target) {p : TargetPermit}
    (h : (c.breakers.acquire target c.now).2.1 = some p) :
    c.step e =
      let x := { c with breakers := (c.breakers.acquire target c.now).1 }.release place none
      ({ x.1 with held := Function.update x.1.held place (some p) },
        (target, .given (some p)) :: x.2.1,
        (c.breakers.acquire target c.now).2.2 ++ x.2.2) := by
  subst he
  unfold step
  dsimp only
  rcases ha : c.breakers.acquire target c.now with ⟨breakers, permit, events⟩
  rw [ha] at h
  cases h
  rfl

/-- A call of a target is asking for a permit, and giving it back if there is one. -/
theorem step_call (c : CircuitBoard) (target : String) (span : Duration)
    (outcome : CallOutcome ε α) (isFailure : α → Bool) :
    c.step (.call target span outcome isFailure) =
      let a := c.breakers.acquire target c.now
      match a.2.1 with
      | none => ({ c with breakers := a.1 }, [(target, .called (.error .circuitOpen))], a.2.2)
      | some p =>
        let back := a.1.takeBack p (outcome.verdict isFailure) (c.now + span)
        ({ c with breakers := back.1, now := c.now + span },
          [(target, .called (outcome.result c.breakers.settings.callTimeout))],
          a.2.2 ++ back.2) := by
  unfold step
  dsimp only
  cases ha : (c.breakers.acquire target c.now).2.1 with
  | none => rw [Breakers.call_refused ha]
  | some p =>
    rw [Breakers.call_taken ha]
    cases outcome <;> rfl

end CircuitBoard
end AccessGateway

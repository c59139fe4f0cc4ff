import AccessGateway.Circuit.Registry
import Mathlib.Data.List.Perm.Basic

/-!
# A breaker and its callers

Any number of callers share one breaker.  Each may ask for a permit, keep it for as long as it
likes, and give it back with an outcome or without one; meanwhile the clock goes on.  `Circuit` is
the breaker with the clock and the permits that are out, `Circuit.step` one thing that happens, and
`Circuit.run` any interleaving of such things.

A permit that is out is a `Ticket`: it keeps how many permits were given before it, and in which
state the breaker gave it.  The breaker itself reads neither.

## Results

* `tryAcquire_cases` — everything that asking for a permit can come to.
* `resolve_trial`, `resolve_regular`, `resolve_regular_closed` — everything that giving one back
  can come to, with or without an outcome.
* `Circuit.Inv` — the invariant that ties the permits to the state: exactly one trial permit is out
  while the circuit is half open and none otherwise, and only trial permits are given by a circuit
  that is not closed.  `inv_run` — it holds in every interleaving.
* `Breakers.call_refused`, `Breakers.call_admitted` — what a guarded call hands on.
-/

set_option autoImplicit false

namespace AccessGateway

/-! ## What a breaker does with one permit -/

namespace Breaker

variable {b b' : Breaker} {s : BreakerSettings} {now : Instant}

/-- Takes a permit back: with the outcome of its call, or without one. -/
def resolve (b : Breaker) (s : BreakerSettings) (p : Permit) (outcome : Option Bool)
    (now : Instant) : Breaker :=
  match outcome with
  | some success => b.record s p success now
  | none => b.onAbandoned p now

/-- Everything that asking for a permit can come to. -/
theorem tryAcquire_cases {permit : Option Permit} (h : b.tryAcquire s now = (b', permit)) :
    (b.state = .closed ∧ b' = b ∧ permit = some ⟨false⟩) ∨
    (b.state = .halfOpen ∧ b' = b ∧ permit = none) ∨
    (b.state = .opened ∧ b.cooledDown s now = false ∧ b' = b ∧ permit = none) ∨
    (b.state = .opened ∧ b.cooledDown s now = true ∧ b' = { b with state := .halfOpen } ∧
      permit = some ⟨true⟩) := by
  unfold tryAcquire at h
  split at h
  · rename_i hs
    cases h
    exact .inl ⟨hs, rfl, rfl⟩
  · rename_i hs
    cases h
    exact .inr (.inl ⟨hs, rfl, rfl⟩)
  · rename_i hs
    split at h
    · rename_i hc
      cases h
      exact .inr (.inr (.inr ⟨hs, hc, rfl, rfl⟩))
    · rename_i hc
      cases h
      exact .inr (.inr (.inl ⟨hs, by simpa using hc, rfl, rfl⟩))

/-- The trial's permit closes the circuit after a success.  After anything else, and also if it
    comes back without an outcome, the circuit opens again and the cooldown counts from now. -/
theorem resolve_trial (h : b.state = .halfOpen) (outcome : Option Bool) :
    b.resolve s ⟨true⟩ outcome now =
      if outcome = some true then { b with state := .closed, failures := 0 }
      else { b with state := .opened, openedAt := Duration.millis (now - b.createdAt) } := by
  cases outcome with
  | none => simp [resolve, onAbandoned, endTrial, markOpened, h]
  | some success =>
    cases success with
    | true => simp [resolve, record, onSuccess, endTrial, h]
    | false => simp [resolve, record, onFailure, endTrial, markOpened, h]

/-- **A regular permit cannot touch a circuit that is not closed**: whatever its outcome, only the
    counter can change. -/
theorem resolve_regular (h : b.state ≠ .closed) (outcome : Option Bool) :
    ∃ n, b.resolve s ⟨false⟩ outcome now = { b with failures := n } := by
  cases outcome with
  | none => exact ⟨b.failures, rfl⟩
  | some success =>
    cases success with
    | true => exact ⟨b.failures, by simp [resolve, record, onSuccess, h]⟩
    | false =>
      exact ⟨(b.failures + 1) % UInt32.size, by simp [resolve, record, onFailure, h]⟩

/-- A regular permit leaves a closed circuit closed, or opens it now with a failure. -/
theorem resolve_regular_closed (h : b.state = .closed) (outcome : Option Bool) :
    (∃ n, b.resolve s ⟨false⟩ outcome now = { b with failures := n }) ∨
      ∃ n, outcome = some false ∧ b.resolve s ⟨false⟩ outcome now =
        { b with state := .opened, failures := n,
                 openedAt := Duration.millis (now - b.createdAt) } := by
  cases outcome with
  | none => exact .inl ⟨b.failures, rfl⟩
  | some success =>
    cases success with
    | true => exact .inl ⟨0, by simp [resolve, record, onSuccess, h]⟩
    | false =>
      by_cases hm : s.maxFailures ≤ (b.failures + 1) % UInt32.size
      · exact .inr ⟨_, rfl, by simp only [resolve, record, onFailure, markOpened, h, hm]; rfl⟩
      · exact .inl ⟨(b.failures + 1) % UInt32.size, by simp [resolve, record, onFailure, hm]⟩

/-- Whole milliseconds fall short of the span that they were counted in. -/
theorem ofMillis_millis_le (d : Duration) : Duration.ofMillis (Duration.millis d) ≤ d :=
  Nat.div_mul_le_self d 1000000

end Breaker

/-! ## Interleavings -/

/-- A permit that is out. -/
structure Ticket where
  permit : Permit
  /-- How many permits were given before. -/
  serial : Nat
  /-- The state in which the breaker was asked. -/
  givenIn : CircuitState
deriving DecidableEq, Repr

/-- A breaker with the clock and the permits that are out. -/
structure Circuit where
  breaker : Breaker
  now : Instant
  /-- How many permits were given so far. -/
  issued : Nat
  out : List Ticket
deriving DecidableEq, Repr

/-- What can happen to a shared breaker. -/
inductive CircuitEvent where
  /-- Somebody asks for a permit. -/
  | acquire
  /-- The permit at this place among those out comes back: with the outcome of its call, or, if it
      was dropped, without one. -/
  | giveBack (place : Nat) (outcome : Option Bool)
  /-- The clock goes on. -/
  | advance (span : Duration)
deriving DecidableEq, Repr

namespace Circuit

/-- A new breaker, none of whose permits was given yet. -/
def start (now : Instant) : Circuit := ⟨.new now, now, 0, []⟩

/-- One thing that happens.  Nothing comes of a permit that is not out. -/
def step (s : BreakerSettings) (c : Circuit) : CircuitEvent → Circuit
  | .acquire =>
    match c.breaker.tryAcquire s c.now with
    | (breaker, some permit) =>
      { c with
        breaker
        issued := c.issued + 1
        out := c.out ++ [⟨permit, c.issued, c.breaker.state⟩] }
    | (breaker, none) => { c with breaker }
  | .giveBack place outcome =>
    match c.out[place]? with
    | some t =>
      { c with
        breaker := c.breaker.resolve s t.permit outcome c.now
        out := c.out.eraseIdx place }
    | none => c
  | .advance span => { c with now := c.now + span }

/-- Any interleaving of such things. -/
def run (s : BreakerSettings) (c : Circuit) (events : List CircuitEvent) : Circuit :=
  events.foldl (step s) c

/-- How many trial permits are out. -/
def trials (c : Circuit) : Nat := c.out.countP (·.permit.trial)

/-- What ties the permits that are out to the state of the breaker. -/
structure Inv (c : Circuit) : Prop where
  /-- Exactly one trial is out while the circuit is half open, and none otherwise. -/
  trials_eq : c.trials = if c.breaker.state = .halfOpen then 1 else 0
  /-- The permits given by a closed circuit are the regular ones. -/
  regular_iff : ∀ t ∈ c.out, t.permit.trial = false ↔ t.givenIn = .closed
  serial_lt : ∀ t ∈ c.out, t.serial < c.issued
  created_le : c.breaker.createdAt ≤ c.now
  /-- The cooldown does not count from an instant to come. -/
  opened_le : Duration.ofMillis c.breaker.openedAt ≤ c.now - c.breaker.createdAt

theorem inv_start (now : Instant) : (start now).Inv := by
  refine ⟨rfl, fun _ h => (nomatch h), fun _ h => (nomatch h), Nat.le_refl _, ?_⟩
  simp [start, Breaker.new, Duration.ofMillis]

/-- The trials that are out are the one that comes back, if it is one, and those that stay. -/
theorem trials_eq_add {c : Circuit} {place : Nat} {t : Ticket} (h : c.out[place]? = some t) :
    c.trials = (c.out.eraseIdx place).countP (·.permit.trial) +
      if t.permit.trial = true then 1 else 0 := by
  obtain ⟨hp, rfl⟩ := List.getElem?_eq_some_iff.mp h
  rw [trials, ← (List.getElem_cons_eraseIdx_perm hp).countP_eq, List.countP_cons]

theorem inv_acquire (s : BreakerSettings) {c : Circuit} (h : c.Inv) : (c.step s .acquire).Inv := by
  obtain ⟨ht, hr, hn, hc, ho⟩ := h
  have hn' (p : Permit) : ∀ t ∈ c.out ++ [⟨p, c.issued, c.breaker.state⟩],
      t.serial < c.issued + 1 := by
    intro t hm
    rcases List.mem_append.mp hm with hm | hm
    · exact Nat.lt_succ_of_lt (hn t hm)
    · rw [List.mem_singleton.mp hm]
      exact Nat.lt_succ_self _
  rcases e : c.breaker.tryAcquire s c.now with ⟨b, permit⟩
  unfold step
  rw [e]
  -- closed, half open, open and cooling, open and cooled down: the first and the last give a permit
  rcases Breaker.tryAcquire_cases e with ⟨hs, rfl, rfl⟩ | ⟨hs, rfl, rfl⟩ | ⟨hs, _, rfl, rfl⟩ |
    ⟨hs, _, rfl, rfl⟩
  · refine ⟨?_, ?_, hn' _, hc, ho⟩
    · simpa [trials, List.countP_append] using ht
    · intro t hm
      rcases List.mem_append.mp hm with hm | hm
      · exact hr t hm
      · rw [List.mem_singleton.mp hm]
        simp [hs]
  · exact ⟨ht, hr, hn, hc, ho⟩
  · exact ⟨ht, hr, hn, hc, ho⟩
  · refine ⟨?_, ?_, hn' _, hc, ho⟩
    · rw [hs] at ht
      simpa [trials, List.countP_append] using ht
    · intro t hm
      rcases List.mem_append.mp hm with hm | hm
      · exact hr t hm
      · rw [List.mem_singleton.mp hm]
        simp [hs]

/-- A permit that comes back cannot disturb the trials: only a trial's own permit ends it, and while
    it is out the circuit is half open. -/
theorem inv_giveBack (s : BreakerSettings) {c : Circuit} (h : c.Inv) (place : Nat)
    (outcome : Option Bool) : (c.step s (.giveBack place outcome)).Inv := by
  obtain ⟨ht, hr, hn, hc, ho⟩ := h
  unfold step
  dsimp only
  split
  · rename_i t hp
    have hsum := trials_eq_add hp
    have hr' : ∀ u ∈ c.out.eraseIdx place, u.permit.trial = false ↔ u.givenIn = .closed :=
      fun u hu => hr u (List.mem_of_mem_eraseIdx hu)
    have hn' : ∀ u ∈ c.out.eraseIdx place, u.serial < c.issued :=
      fun u hu => hn u (List.mem_of_mem_eraseIdx hu)
    have hmark := Breaker.ofMillis_millis_le (c.now - c.breaker.createdAt)
    rcases t with ⟨⟨trial⟩, serial, givenIn⟩
    cases trial with
    | true =>
      -- a trial that is out means half open, and it is the only one
      have hs : c.breaker.state = .halfOpen := by
        by_contra hs
        rw [if_neg hs] at ht
        simp at hsum
        omega
      rw [if_pos hs] at ht
      have hrest : (c.out.eraseIdx place).countP (·.permit.trial) = 0 := by
        simp at hsum
        omega
      rw [Breaker.resolve_trial hs]
      split
      · exact ⟨by simpa [trials] using hrest, hr', hn', hc, ho⟩
      · exact ⟨by simpa [trials] using hrest, hr', hn', hc, hmark⟩
    | false =>
      have hrest : (c.out.eraseIdx place).countP (·.permit.trial) = c.trials := by
        simp at hsum
        omega
      by_cases hs : c.breaker.state = .closed
      · rcases Breaker.resolve_regular_closed hs outcome with ⟨n, e⟩ | ⟨n, _, e⟩
        · rw [e]
          exact ⟨hrest.trans ht, hr', hn', hc, ho⟩
        · rw [e]
          rw [hs] at ht
          exact ⟨hrest.trans ht, hr', hn', hc, hmark⟩
      · obtain ⟨n, e⟩ := Breaker.resolve_regular hs outcome
        rw [e]
        exact ⟨hrest.trans ht, hr', hn', hc, ho⟩
  · exact ⟨ht, hr, hn, hc, ho⟩

theorem inv_step (s : BreakerSettings) {c : Circuit} (h : c.Inv) (e : CircuitEvent) :
    (c.step s e).Inv := by
  cases e with
  | acquire => exact inv_acquire s h
  | giveBack place outcome => exact inv_giveBack s h place outcome
  | advance span =>
    obtain ⟨ht, hr, hn, hc, ho⟩ := h
    refine ⟨ht, hr, hn, Nat.le_add_right_of_le hc, Nat.le_trans ho ?_⟩
    exact Nat.sub_le_sub_right (Nat.le_add_right _ _) _

/-- **The permits that are out fit the state of the breaker**, in every interleaving. -/
theorem inv_run (s : BreakerSettings) {c : Circuit} (h : c.Inv) (events : List CircuitEvent) :
    (c.run s events).Inv := by
  unfold run
  induction events generalizing c with
  | nil => exact h
  | cons e es ih => exact ih (inv_step s h e)

end Circuit

/-! ## Guarded calls -/

/-- What a call hands on that was admitted. -/
def CallOutcome.result {ε α : Type} (limit : Duration) :
    CallOutcome ε α → Except (CallError ε) α
  | .value a => .ok a
  | .failure e => .error (.failed e)
  | .noAnswer => .error (.timedOut limit)
  | .abandoned => .error .abandoned

namespace Breakers

variable {ε α : Type} {r : Breakers} {target : String} {now : Instant}

/-- A call asks the breaker of its target for a permit. -/
theorem acquire_of_find? {b : Breaker} (h : r.find? target = some b) :
    r.acquire target now =
      (r.put target (b.tryAcquire r.settings now).1,
        (b.tryAcquire r.settings now).2.map (⟨target, ·⟩),
        Breaker.changes target b (b.tryAcquire r.settings now).1) := by
  simp only [acquire, get, h]

theorem settings_get (r : Breakers) (target : String) (now : Instant) :
    (r.get target now).1.settings = r.settings := by
  unfold get
  split <;> rfl

theorem settings_acquire (r : Breakers) (target : String) (now : Instant) :
    (r.acquire target now).1.settings = r.settings := settings_get r target now

theorem settings_record (r : Breakers) (p : TargetPermit) (success : Bool) (now : Instant) :
    (r.record p success now).1.settings = r.settings := settings_get r p.target now

/-- Without a permit a call ends at once; what it would have done plays no part. -/
theorem call_refused (h : (r.acquire target now).2.1 = none) (later : Instant)
    (outcome : CallOutcome ε α) (isFailure : α → Bool) :
    r.call target now later outcome isFailure =
      ((r.acquire target now).1, .error .circuitOpen, (r.acquire target now).2.2) := by
  unfold call
  rcases ha : r.acquire target now with ⟨r', permit, events⟩
  rw [ha] at h
  cases h
  rfl

/-- With a permit a call hands on what came of it. -/
theorem call_admitted {p : TargetPermit} (h : (r.acquire target now).2.1 = some p)
    (later : Instant) (outcome : CallOutcome ε α) (isFailure : α → Bool) :
    (r.call target now later outcome isFailure).2.1 = outcome.result r.settings.callTimeout := by
  have hsettings := settings_acquire r target now
  unfold call
  rcases ha : r.acquire target now with ⟨r', permit, events⟩
  rw [ha] at h hsettings
  cases h
  cases outcome with
  | value a => rfl
  | failure e => rfl
  | noAnswer =>
    show Except.error (CallError.timedOut (r'.record p false later).1.settings.callTimeout) = _
    rw [settings_record, hsettings]
    rfl
  | abandoned => rfl

end Breakers
end AccessGateway

import AccessGateway.Proofs.Circuit.SharedBreaker

/-!
# What happened to a breaker

Some laws of a breaker speak of its past: how many calls failed in a row, when the circuit opened.
The breaker keeps a counter and an instant for this, which are also changed by what has nothing to
do with either.  So the past itself is written down here: `Circuit.past` is the row of all moments
of a run, the latest first, and a moment is what happened with the circuit that it met.

## Results

* `Circuit.run_concat`, `Circuit.past_concat` — a run and its past, with one moment more.
* `Circuit.Inv.halfOpen_of_trial` — a trial comes back to a circuit that is half open.
* `Moment.after_cases` — which operation of the breaker a moment is.
* `Moment.Turn` — the five ways in which a moment can turn a breaker; `Moment.turn` — there is no
  other.
-/

set_option autoImplicit false

namespace AccessGateway

/-- One thing that happened, with the circuit that it met. -/
structure Moment where
  circuit : Circuit
  event : CircuitEvent
deriving DecidableEq, Repr

namespace Moment

/-- The circuit afterwards. -/
def after (s : BreakerSettings) (m : Moment) : Circuit := m.circuit.step s m.event

/-- The permit that came back, if one did: with the outcome of its call, or without one if it was
    dropped. -/
def returned? (m : Moment) : Option (Permit × Option Bool) :=
  match m.event with
  | .giveBack place outcome => m.circuit.out[place]?.map fun t => (t.permit, outcome)
  | .acquire | .advance _ => none

end Moment

namespace Circuit

/-- What happened in a run, the latest first. -/
def past (s : BreakerSettings) (c : Circuit) : List CircuitEvent → List Moment
  | [] => []
  | e :: es => (c.step s e).past s es ++ [⟨c, e⟩]

variable {s : BreakerSettings} {c : Circuit}

theorem run_concat (s : BreakerSettings) (c : Circuit) (events : List CircuitEvent)
    (e : CircuitEvent) : c.run s (events ++ [e]) = Moment.after s ⟨c.run s events, e⟩ :=
  List.foldl_concat ..

theorem past_concat (s : BreakerSettings) (c : Circuit) (events : List CircuitEvent)
    (e : CircuitEvent) : c.past s (events ++ [e]) = ⟨c.run s events, e⟩ :: c.past s events := by
  induction events generalizing c with
  | nil => rfl
  | cons e' es ih =>
    rw [List.cons_append, past, ih]
    rfl

/-- While a trial is out the circuit is half open. -/
theorem Inv.halfOpen_of_trial (h : c.Inv) {t : Ticket} (ht : t ∈ c.out)
    (htrial : t.permit.trial = true) : c.breaker.state = .halfOpen := by
  have hpos : 0 < c.trials := List.countP_pos_iff.mpr ⟨t, ht, htrial⟩
  rw [h.trials_eq] at hpos
  by_contra hs
  rw [if_neg hs] at hpos
  exact Nat.lt_irrefl 0 hpos

end Circuit

namespace Moment

variable {s : BreakerSettings} {m : Moment} {p : Permit} {outcome : Option Bool}

theorem returned?_eq_some : m.returned? = some (p, outcome) ↔
    ∃ place t, m.event = .giveBack place outcome ∧ m.circuit.out[place]? = some t ∧
      t.permit = p := by
  rcases m with ⟨c, e⟩
  cases e with
  | acquire => simp [returned?]
  | advance span => simp [returned?]
  | giveBack place outcome' =>
    simp only [returned?, Option.map_eq_some_iff, Prod.mk.injEq, CircuitEvent.giveBack.injEq]
    constructor
    · rintro ⟨t, ht, rfl, rfl⟩
      exact ⟨place, t, ⟨rfl, rfl⟩, ht, rfl⟩
    · rintro ⟨_, t, ⟨rfl, rfl⟩, ht, rfl⟩
      exact ⟨t, ht, rfl, rfl⟩

/-- A moment changes the breaker by asking for a permit or by giving one back. -/
theorem after_cases (s : BreakerSettings) (m : Moment) :
    (m.event = .acquire ∧ m.returned? = none ∧
      (m.after s).breaker = (m.circuit.breaker.tryAcquire s m.circuit.now).1) ∨
    (∃ p outcome, m.returned? = some (p, outcome) ∧
      (m.after s).breaker = m.circuit.breaker.resolve s p outcome m.circuit.now) ∨
    (m.event ≠ .acquire ∧ m.returned? = none ∧ (m.after s).breaker = m.circuit.breaker) := by
  rcases m with ⟨c, e⟩
  cases e with
  | acquire =>
    refine .inl ⟨rfl, rfl, ?_⟩
    show (c.step s .acquire).breaker = _
    unfold Circuit.step
    rcases c.breaker.tryAcquire s c.now with ⟨b, _ | permit⟩ <;> rfl
  | advance span => exact .inr (.inr ⟨nofun, rfl, rfl⟩)
  | giveBack place outcome =>
    cases ht : c.out[place]? with
    | none => exact .inr (.inr ⟨nofun, by simp [returned?, ht], by simp [after, Circuit.step, ht]⟩)
    | some t =>
      exact .inr (.inl ⟨t.permit, outcome, by simp [returned?, ht],
        by simp [after, Circuit.step, ht]⟩)

theorem after_of_returned (h : m.returned? = some (p, outcome)) :
    (m.after s).breaker = m.circuit.breaker.resolve s p outcome m.circuit.now := by
  obtain ⟨-, hnone, -⟩ | ⟨p', outcome', hsome, e⟩ | ⟨-, hnone, -⟩ := m.after_cases s
  · rw [hnone] at h
    cases h
  · rw [hsome] at h
    cases h
    exact e
  · rw [hnone] at h
    cases h

/-- A call with a regular permit failed. -/
def fails (m : Moment) : Bool := m.returned? = some (⟨false⟩, some false)

/-- The ways in which a moment can turn a breaker. -/
inductive Turn (s : BreakerSettings) (m : Moment) : Prop
  /-- A circuit that has cooled down admits a trial. -/
  | admits (asked : m.event = .acquire) (state : m.circuit.breaker.state = .opened)
      (cooled : m.circuit.breaker.cooledDown s m.circuit.now = true)
      (after : (m.after s).breaker = { m.circuit.breaker with state := .halfOpen })
  /-- The trial succeeds. -/
  | closes (returned : m.returned? = some (⟨true⟩, some true))
      (state : m.circuit.breaker.state = .halfOpen)
      (after : (m.after s).breaker = { m.circuit.breaker with state := .closed, failures := 0 })
  /-- The trial fails, or is given up. -/
  | reopens (outcome : Option Bool) (returned : m.returned? = some (⟨true⟩, outcome))
      (failed : outcome ≠ some true) (state : m.circuit.breaker.state = .halfOpen)
      (after : (m.after s).breaker = { m.circuit.breaker with
        state := .opened
        openedAt := Duration.millis (m.circuit.now - m.circuit.breaker.createdAt) })
  /-- A failure reaches the limit. -/
  | opens (fails : m.fails = true) (state : m.circuit.breaker.state = .closed)
      (reached : s.maxFailures ≤ (m.circuit.breaker.failures + 1) % UInt32.size)
      (after : (m.after s).breaker = { m.circuit.breaker with
        state := .opened
        failures := (m.circuit.breaker.failures + 1) % UInt32.size
        openedAt := Duration.millis (m.circuit.now - m.circuit.breaker.createdAt) })
  /-- Nothing but the counter changes. -/
  | stays (cooling : m.event = .acquire → m.circuit.breaker.state = .opened →
        m.circuit.breaker.cooledDown s m.circuit.now = false)
      (regular : ∀ p outcome, m.returned? = some (p, outcome) → p.trial = false)
      (below : m.fails = true → m.circuit.breaker.state = .closed →
        (m.circuit.breaker.failures + 1) % UInt32.size < s.maxFailures)
      (n : Nat) (after : (m.after s).breaker = { m.circuit.breaker with failures := n })

theorem turn_of_acquire (he : m.event = .acquire) : m.Turn s := by
  obtain ⟨-, hr, e⟩ | ⟨p, outcome, hr, -⟩ | ⟨hne, -, -⟩ := m.after_cases s
  · have hnothing : ∀ p outcome, m.returned? = some (p, outcome) → p.trial = false := by
      intro p outcome hp
      rw [hr] at hp
      cases hp
    have hbelow : m.fails = true → m.circuit.breaker.state = .closed →
        (m.circuit.breaker.failures + 1) % UInt32.size < s.maxFailures := by
      intro hf
      rw [fails, hr] at hf
      cases hf
    rcases ha : m.circuit.breaker.tryAcquire s m.circuit.now with ⟨b, permit⟩
    rw [ha] at e
    obtain ⟨hs, rfl, -⟩ | ⟨hs, rfl, -⟩ | ⟨hs, hc, rfl, -⟩ | ⟨hs, hc, rfl, -⟩ :=
      Breaker.tryAcquire_cases ha
    · exact .stays (fun _ ho => nomatch hs.symm.trans ho) hnothing hbelow _ e
    · exact .stays (fun _ ho => nomatch hs.symm.trans ho) hnothing hbelow _ e
    · exact .stays (fun _ _ => hc) hnothing hbelow _ e
    · exact .admits he hs hc e
  · obtain ⟨place, t, he', -⟩ := returned?_eq_some.mp hr
    exact nomatch he.symm.trans he'
  · exact absurd he hne

/-- A permit that comes back: the trial's ends the trial, any other can only open a closed
    circuit. -/
theorem turn_of_returned (h : m.circuit.Inv) (hr : m.returned? = some (p, outcome)) :
    m.Turn s := by
  have e := after_of_returned (s := s) hr
  obtain ⟨place, t, he, ht, hp⟩ := returned?_eq_some.mp hr
  have hasked : m.event ≠ .acquire := fun hne => nomatch he.symm.trans hne
  rcases p with ⟨_ | _⟩
  · have hregular : ∀ p' outcome', m.returned? = some (p', outcome') → p'.trial = false := by
      intro p' outcome' hp'
      rw [hr] at hp'
      cases hp'
      rfl
    by_cases hs : m.circuit.breaker.state = .closed
    · match outcome with
      | none =>
        refine .stays (fun ha => absurd ha hasked) hregular (fun hf => ?_) _ e
        simp [fails, hr] at hf
      | some true =>
        refine .stays (fun ha => absurd ha hasked) hregular (fun hf => ?_) 0 ?_
        · simp [fails, hr] at hf
        · rw [e]
          simp [Breaker.resolve, Breaker.record, Breaker.onSuccess, hs]
      | some false =>
        by_cases hm : s.maxFailures ≤ (m.circuit.breaker.failures + 1) % UInt32.size
        · refine .opens (by simp [fails, hr]) hs hm ?_
          rw [e]
          simp [Breaker.resolve, Breaker.record, Breaker.onFailure, Breaker.markOpened, hs, hm]
        · refine .stays (fun ha => absurd ha hasked) hregular (fun _ _ => Nat.not_le.mp hm)
            ((m.circuit.breaker.failures + 1) % UInt32.size) ?_
          rw [e]
          simp [Breaker.resolve, Breaker.record, Breaker.onFailure, hm]
    · obtain ⟨n, hn⟩ : ∃ n, m.circuit.breaker.resolve s ⟨false⟩ outcome m.circuit.now =
          { m.circuit.breaker with failures := n } := Breaker.resolve_regular hs outcome
      exact .stays (fun ha => absurd ha hasked) hregular (fun _ hc => absurd hc hs) n
        (e.trans hn)
  · have hs := h.halfOpen_of_trial (List.mem_of_getElem? ht) (by rw [hp])
    rw [Breaker.resolve_trial hs] at e
    split at e
    · rename_i hsuccess
      subst hsuccess
      exact .closes hr hs e
    · rename_i hfailed
      exact .reopens outcome hr hfailed hs e

/-- **There is no other way** in which a breaker changes. -/
theorem turn (s : BreakerSettings) (h : m.circuit.Inv) : m.Turn s := by
  obtain ⟨he, -, -⟩ | ⟨p, outcome, hr, -⟩ | ⟨hne, hr, e⟩ := m.after_cases s
  · exact turn_of_acquire he
  · exact turn_of_returned h hr
  · refine .stays (fun ha => absurd ha hne) (fun p outcome hp => ?_) (fun hf => ?_) _ e
    · rw [hr] at hp
      cases hp
    · rw [fails, hr] at hf
      cases hf

end Moment
end AccessGateway

import AccessGateway.Proofs.Circuit.SharedBreaker

/-!
# One trial at a time

While a circuit is not closed, the only permit it gives is that of a trial, and no second one before
the first came back.  Permits from before the opening are still out then, and come back late; their
outcomes change neither the state nor the instant from which the cooldown counts.

## Results

* `tryAcquire_halfOpen`, `tryAcquire_cooling` — when no permit is given.
* `resolve_given_closed` — late outcomes of permits that a closed circuit gave.
* `newcomers_le_one` — between an opening and the next closing at most one permit that was given
  since the opening is out.
* `single_trial` — all of it, in every interleaving.
-/

set_option autoImplicit false

namespace AccessGateway

/-! ## When no permit is given -/

namespace Breaker

theorem tryAcquire_halfOpen {b : Breaker} (s : BreakerSettings) (now : Instant)
    (h : b.state = .halfOpen) : b.tryAcquire s now = (b, none) := by
  unfold tryAcquire
  rw [h]

/-- No permit is given before the cooldown is over. -/
theorem tryAcquire_cooling {b : Breaker} {s : BreakerSettings} {now : Instant}
    (h : b.state = .opened) (hc : b.cooledDown s now = false) : b.tryAcquire s now = (b, none) := by
  unfold tryAcquire
  rw [h]
  simp [hc]

end Breaker

namespace Circuit

variable {s : BreakerSettings} {c : Circuit}

/-- The cooldown lasts from the instant of opening, which is kept in whole milliseconds. -/
theorem Inv.cooling (h : c.Inv)
    (hn : c.now < c.breaker.createdAt + Duration.ofMillis c.breaker.openedAt + s.resetTimeout) :
    c.breaker.cooledDown s c.now = false := by
  have h₁ : c.breaker.createdAt ≤ c.now := h.created_le
  have h₂ : Duration.ofMillis c.breaker.openedAt ≤ c.now - c.breaker.createdAt := h.opened_le
  simp only [Breaker.cooledDown, decide_eq_false_iff_not, Nat.not_le]
  refine Nat.sub_lt_left_of_lt_add h₂ (Nat.sub_lt_left_of_lt_add h₁ ?_)
  rwa [← Nat.add_assoc]

/-- Late outcomes of permits that a closed circuit gave. -/
theorem resolve_given_closed (h : c.Inv) {t : Ticket} (ht : t ∈ c.out) (hg : t.givenIn = .closed)
    (hs : c.breaker.state ≠ .closed) (outcome : Option Bool) :
    ∃ n, c.breaker.resolve s t.permit outcome c.now = { c.breaker with failures := n } := by
  have hp : t.permit = ⟨false⟩ := by
    have := (h.regular_iff t ht).mpr hg
    rcases t with ⟨⟨trial⟩, _, _⟩
    exact congrArg Permit.mk this
  rw [hp]
  exact Breaker.resolve_regular hs outcome

/-! ## Permits given since an opening -/

/-- The permits that are out and were given after the first `n` permits. -/
def newcomers (n : Nat) (c : Circuit) : List Ticket := c.out.filter fun t => n ≤ t.serial

/-- A circuit that is not closed gives trial permits only. -/
theorem newcomers_step {n : Nat} (h : ∀ t ∈ c.newcomers n, t.permit.trial = true)
    (hs : c.breaker.state ≠ .closed) (e : CircuitEvent) :
    ∀ t ∈ (c.step s e).newcomers n, t.permit.trial = true := by
  intro t ht
  obtain ⟨ht, hn⟩ := List.mem_filter.mp ht
  cases e with
  | acquire =>
    rcases e : c.breaker.tryAcquire s c.now with ⟨b, permit⟩
    unfold step at ht
    rw [e] at ht
    rcases Breaker.tryAcquire_cases e with ⟨hs', _⟩ | ⟨_, _, rfl⟩ | ⟨_, _, _, rfl⟩ |
      ⟨_, _, _, rfl⟩
    · exact absurd hs' hs
    · exact h t (List.mem_filter.mpr ⟨ht, hn⟩)
    · exact h t (List.mem_filter.mpr ⟨ht, hn⟩)
    · rcases List.mem_append.mp ht with ht | ht
      · exact h t (List.mem_filter.mpr ⟨ht, hn⟩)
      · rw [List.mem_singleton.mp ht]
  | giveBack place outcome =>
    unfold step at ht
    dsimp only at ht
    split at ht
    · exact h t (List.mem_filter.mpr ⟨List.mem_of_mem_eraseIdx ht, hn⟩)
    · exact h t (List.mem_filter.mpr ⟨ht, hn⟩)
  | advance span => exact h t (List.mem_filter.mpr ⟨ht, hn⟩)

theorem newcomers_run {n : Nat} (events : List CircuitEvent)
    (h : ∀ t ∈ c.newcomers n, t.permit.trial = true)
    (hs : ∀ part, part <+: events → (c.run s part).breaker.state ≠ .closed) :
    ∀ t ∈ (c.run s events).newcomers n, t.permit.trial = true := by
  induction events generalizing c with
  | nil => exact h
  | cons e es ih =>
    refine ih (newcomers_step h (hs [] (List.nil_prefix)) e) fun part hp => ?_
    exact hs (e :: part) (List.cons_prefix_cons.mpr ⟨rfl, hp⟩)

/-- **At most one newcomer**: as long as the circuit does not close, at most one permit that was
    given since is out. -/
theorem newcomers_le_one (h : c.Inv) {later : List CircuitEvent}
    (hs : ∀ part, part <+: later → (c.run s part).breaker.state ≠ .closed) :
    ((c.run s later).newcomers c.issued).length ≤ 1 := by
  -- at the opening there are no newcomers yet, as all serials are below `issued`
  have hnone : ∀ t ∈ c.newcomers c.issued, t.permit.trial = true := by
    intro t ht
    obtain ⟨ht, hn⟩ := List.mem_filter.mp ht
    exact absurd (h.serial_lt t ht) (Nat.not_lt.mpr (by simpa using hn))
  have htrial := newcomers_run later hnone hs
  have hle : ((c.run s later).newcomers c.issued).length ≤ (c.run s later).trials := by
    rw [← List.countP_eq_length.mpr htrial]
    exact List.filter_sublist.countP_le
  rw [(inv_run s h later).trials_eq] at hle
  exact Nat.le_trans hle (by split <;> decide)

end Circuit

/-! ## All interleavings -/

/-- **Single trial.**  For every settings and every interleaving of requests for permits, permits
    that come back with an outcome or without one, and advances of the clock:

    * one trial permit is out while the circuit is half open, and none otherwise;
    * no permit is given while it is half open, or open before the cooldown is over;
    * whatever comes back late from a permit that was given while the circuit was closed, a circuit
      that is not closed keeps its state and the instant from which its cooldown counts;
    * until the circuit closes again at most one permit given since is out;
    * a guarded call is told that the circuit is open exactly if it got no permit, and then what it
      would have done plays no part. -/
theorem single_trial (s : BreakerSettings) (t₀ : Instant) (events : List CircuitEvent) :
    let c := (Circuit.start t₀).run s events
    c.trials = (if c.breaker.state = .halfOpen then 1 else 0) ∧
    (c.breaker.state = .halfOpen → c.breaker.tryAcquire s c.now = (c.breaker, none)) ∧
    (c.breaker.state = .opened →
      c.now < c.breaker.createdAt + Duration.ofMillis c.breaker.openedAt + s.resetTimeout →
      c.breaker.tryAcquire s c.now = (c.breaker, none)) ∧
    (∀ t ∈ c.out, t.givenIn = .closed → c.breaker.state ≠ .closed → ∀ outcome,
      (c.breaker.resolve s t.permit outcome c.now).state = c.breaker.state ∧
      (c.breaker.resolve s t.permit outcome c.now).openedAt = c.breaker.openedAt) ∧
    (∀ later, (∀ part, part <+: later → (c.run s part).breaker.state ≠ .closed) →
      ((c.run s later).newcomers c.issued).length ≤ 1) ∧
    (∀ (r : Breakers) (target : String), r.settings = s → r.find? target = some c.breaker →
      ∀ (ε α : Type) (later : Instant) (outcome : CallOutcome ε α) (isFailure : α → Bool),
      ((r.call target c.now later outcome isFailure).2.1 = .error .circuitOpen ↔
        (c.breaker.tryAcquire s c.now).2 = none) ∧
      ((c.breaker.tryAcquire s c.now).2 = none →
        ∀ (later' : Instant) (other : CallOutcome ε α),
          r.call target c.now later' other isFailure =
            r.call target c.now later outcome isFailure)) := by
  intro c
  have hinv : c.Inv := Circuit.inv_run s (Circuit.inv_start t₀) events
  refine ⟨hinv.trials_eq, fun hs => Breaker.tryAcquire_halfOpen s c.now hs, ?_, ?_, ?_, ?_⟩
  · intro hs hn
    exact Breaker.tryAcquire_cooling hs (hinv.cooling hn)
  · intro t ht hg hs outcome
    obtain ⟨n, e⟩ := Circuit.resolve_given_closed hinv ht hg hs outcome
    rw [e]
    exact ⟨rfl, rfl⟩
  · intro later hs
    exact Circuit.newcomers_le_one hinv hs
  · intro r target hsettings hfind ε α later outcome isFailure
    subst hsettings
    have hpermit : (r.acquire target c.now).2.1 =
        (c.breaker.tryAcquire r.settings c.now).2.map (⟨target, ·⟩) := by
      rw [Breakers.acquire_of_find? hfind]
    refine ⟨⟨fun hopen => ?_, fun hp => ?_⟩, fun hp later' other => ?_⟩
    · cases hp : (c.breaker.tryAcquire r.settings c.now).2 with
      | none => rfl
      | some p =>
        rw [hp, Option.map_some] at hpermit
        rw [Breakers.call_admitted hpermit] at hopen
        cases outcome <;> cases hopen
    · rw [hp, Option.map_none] at hpermit
      rw [Breakers.call_refused hpermit]
    · rw [hp, Option.map_none] at hpermit
      rw [Breakers.call_refused hpermit, Breakers.call_refused hpermit]

end AccessGateway

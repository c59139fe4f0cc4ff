import AccessGateway.Proofs.Circuit.Past
import Mathlib.Data.List.Infix

/-!
# Failures in a row

A breaker is to open when as many calls in a row have failed as its limit says.  It counts with one
number, which late failures raise also while the circuit is open or half open, and which a success
resets only while the circuit is closed.  `streak` is what is meant to be counted, read off the
past: the failures of regular permits since the last success that counts.

## Results

* `Moment.after_failures` — what a moment makes of the counter.
* `Circuit.failures_eq` — the counter is the streak, up to the size of a word.
* `Circuit.belowLimit_run` — a closed circuit has not reached its limit.
* `opens_on_streak` — a closed circuit opens with the failure that makes the streak reach the limit,
  and with nothing else.
-/

set_option autoImplicit false

namespace AccessGateway

/-! ## The counter -/

theorem Breaker.resolve_failures (b : Breaker) (s : BreakerSettings) (p : Permit)
    (outcome : Option Bool) (now : Instant) :
    (b.resolve s p outcome now).failures =
      if outcome = some true ∧ (p.trial = true ∨ b.state = .closed) then 0
      else if outcome = some false ∧ p.trial = false then (b.failures + 1) % UInt32.size
      else b.failures := by
  have hend (b : Breaker) (next : CircuitState) : (b.endTrial next).failures = b.failures := by
    unfold endTrial
    split <;> rfl
  rcases p with ⟨trial⟩
  match outcome, trial with
  | none, true => simp [resolve, onAbandoned, hend, markOpened]
  | none, false => simp [resolve, onAbandoned]
  | some true, true => simp [resolve, record, onSuccess, hend]
  | some true, false =>
    by_cases hs : b.state = .closed
    · simp [resolve, record, onSuccess, hs]
    · simp [resolve, record, onSuccess, hs]
  | some false, true => simp [resolve, record, onFailure, hend, markOpened]
  | some false, false =>
    simp only [resolve, record, onFailure]
    split
    · contradiction
    · simp only [Bool.false_eq_true]
      split <;> simp [markOpened]

namespace Moment

/-- A success that ends a row of failures: of a trial, or of a regular permit that comes back to a
    closed circuit. -/
def clears (m : Moment) : Bool :=
  m.returned? = some (⟨true⟩, some true) ||
    (m.returned? = some (⟨false⟩, some true) && m.circuit.breaker.state = .closed)

theorem after_failures (s : BreakerSettings) (m : Moment) :
    (m.after s).breaker.failures =
      if m.clears = true then 0
      else if m.fails = true then (m.circuit.breaker.failures + 1) % UInt32.size
      else m.circuit.breaker.failures := by
  unfold clears fails
  obtain ⟨-, hr, e⟩ | ⟨⟨trial⟩, outcome, hr, e⟩ | ⟨-, hr, e⟩ := m.after_cases s
  · rw [e, hr]
    rcases ha : m.circuit.breaker.tryAcquire s m.circuit.now with ⟨b, permit⟩
    obtain ⟨-, rfl, -⟩ | ⟨-, rfl, -⟩ | ⟨-, -, rfl, -⟩ | ⟨-, -, rfl, -⟩ :=
      Breaker.tryAcquire_cases ha <;> rfl
  · rw [e, hr, Breaker.resolve_failures]
    match outcome, trial with
    | none, _ => simp
    | some true, true => simp
    | some true, false => simp
    | some false, true => simp
    | some false, false => simp
  · rw [e, hr]
    rfl

theorem not_clears_of_fails {m : Moment} (h : m.fails = true) : m.clears = false := by
  unfold fails at h
  unfold clears
  rw [of_decide_eq_true h]
  simp

end Moment

/-! ## The streak -/

/-- How many calls with regular permits failed since the last success that counts, or since the
    breaker was made. -/
def streak (past : List Moment) : Nat := (past.takeWhile fun m => !m.clears).countP (·.fails)

theorem streak_cons (m : Moment) (past : List Moment) :
    streak (m :: past) =
      if m.clears = true then 0 else if m.fails = true then streak past + 1 else streak past := by
  unfold streak
  rw [List.takeWhile_cons]
  cases hc : m.clears with
  | true => simp
  | false => simp [List.countP_cons, apply_ite]

theorem streak_of_fails {m : Moment} (h : m.fails = true) (past : List Moment) :
    streak (m :: past) = streak past + 1 := by
  rw [streak_cons, if_neg (by simp [Moment.not_clears_of_fails h]), if_pos h]

theorem streak_le_length (past : List Moment) : streak past ≤ past.length :=
  List.countP_le_length.trans (List.takeWhile_prefix _).length_le

namespace Circuit

theorem length_past (s : BreakerSettings) (c : Circuit) (events : List CircuitEvent) :
    (c.past s events).length = events.length := by
  induction events using List.reverseRecOn with
  | nil => rfl
  | append_singleton events e ih => simp [past_concat, ih]

/-- A run of fewer moments than the counter can hold does not make it run over. -/
theorem streak_lt_of_length {s : BreakerSettings} {c : Circuit} {part events : List CircuitEvent}
    (h : events.length < UInt32.size) (hp : part <+: events) :
    streak (c.past s part) < UInt32.size := by
  have hstreak := streak_le_length (c.past s part)
  have hpart := hp.length_le
  rw [length_past] at hstreak
  omega

/-- **The counter is the streak**, whatever the state of the circuit and however many failures came
    late. -/
theorem failures_eq (s : BreakerSettings) (t₀ : Instant) (events : List CircuitEvent) :
    ((start t₀).run s events).breaker.failures =
      streak ((start t₀).past s events) % UInt32.size := by
  induction events using List.reverseRecOn with
  | nil => rfl
  | append_singleton events e ih =>
    rw [run_concat, past_concat, streak_cons, Moment.after_failures, ih]
    split
    · rfl
    · split
      · rw [Nat.mod_add_mod]
      · rfl

/-- A closed circuit has not reached its limit. -/
def BelowLimit (s : BreakerSettings) (c : Circuit) : Prop :=
  c.breaker.state = .closed → c.breaker.failures < max 1 s.maxFailures

/-- It would have opened, and a trial that closes a circuit starts the count anew. -/
theorem BelowLimit.after {s : BreakerSettings} {m : Moment} (h : m.circuit.Inv)
    (hb : m.circuit.BelowLimit s) : (m.after s).BelowLimit s := by
  have hzero : 0 < max 1 s.maxFailures := Nat.lt_of_lt_of_le Nat.zero_lt_one (Nat.le_max_left _ _)
  intro hclosed
  cases m.turn s h with
  | admits _ _ _ after =>
    rw [after] at hclosed
    cases hclosed
  | closes _ _ after =>
    rw [after]
    exact hzero
  | reopens _ _ _ _ after =>
    rw [after] at hclosed
    cases hclosed
  | opens _ _ _ after =>
    rw [after] at hclosed
    cases hclosed
  | stays _ _ below n after =>
    rw [after] at hclosed
    rw [Moment.after_failures]
    split
    · exact hzero
    · split
      · rename_i hfails
        exact Nat.lt_of_lt_of_le (below hfails hclosed) (Nat.le_max_right _ _)
      · exact hb hclosed

theorem belowLimit_run (s : BreakerSettings) (t₀ : Instant) (events : List CircuitEvent) :
    ((start t₀).run s events).BelowLimit s := by
  induction events using List.reverseRecOn with
  | nil => exact fun _ => Nat.lt_of_lt_of_le Nat.zero_lt_one (Nat.le_max_left _ _)
  | append_singleton events e ih =>
    rw [run_concat]
    exact BelowLimit.after (inv_run s (inv_start t₀) events) ih

end Circuit

/-! ## All interleavings -/

/-- **A closed circuit opens on the streak.**  For every settings and every interleaving of requests
    for permits, permits that come back with an outcome or without one, and advances of the clock,
    in which no more calls fail in a row than the counter can hold: at every point of it

    * the counter of a closed circuit is the streak, and below the limit (a limit of zero is as good
      as one of one);
    * whatever happens next, a closed circuit opens exactly if a regular permit's call failed and
      the streak has reached the limit with it, and stays closed otherwise;
    * a trial that succeeds closes the circuit with a counter of zero, whatever came late before. -/
theorem opens_on_streak (s : BreakerSettings) (t₀ : Instant) (events : List CircuitEvent)
    (h : ∀ part, part <+: events → streak ((Circuit.start t₀).past s part) < UInt32.size) :
    ∀ part, part <+: events →
      let c := (Circuit.start t₀).run s part
      let past := (Circuit.start t₀).past s part
      (c.breaker.state = .closed →
        c.breaker.failures = streak past ∧ c.breaker.failures < max 1 s.maxFailures) ∧
      ∀ e, part ++ [e] <+: events →
        let m : Moment := ⟨c, e⟩
        (c.breaker.state = .closed →
          (m.after s).breaker.state =
            if m.fails = true ∧ max 1 s.maxFailures ≤ streak (m :: past) then .opened
            else .closed) ∧
        (m.returned? = some (⟨true⟩, some true) →
          (m.after s).breaker.state = .closed ∧ (m.after s).breaker.failures = 0) := by
  intro part hpart c past
  have hinv : c.Inv := Circuit.inv_run s (Circuit.inv_start t₀) part
  have hcounter : c.breaker.failures = streak past := by
    rw [show c.breaker.failures = _ from Circuit.failures_eq s t₀ part]
    exact Nat.mod_eq_of_lt (h part hpart)
  refine ⟨fun hs => ⟨hcounter, Circuit.belowLimit_run s t₀ part hs⟩, ?_⟩
  intro e he m
  constructor
  · intro hs
    -- the counter does not run over with one failure more
    have hnext : m.fails = true →
        (c.breaker.failures + 1) % UInt32.size = streak (m :: past) := by
      intro hfails
      have hfit := h (part ++ [e]) he
      rw [Circuit.past_concat] at hfit
      rw [streak_of_fails hfails] at hfit ⊢
      rw [hcounter]
      exact Nat.mod_eq_of_lt hfit
    cases m.turn s hinv with
    | admits _ state => cases hs.symm.trans state
    | closes _ state => cases hs.symm.trans state
    | reopens _ _ _ state => cases hs.symm.trans state
    | opens fails _ reached after =>
      have hstreak := streak_of_fails fails past
      rw [hnext fails] at reached
      rw [if_pos ⟨fails, by omega⟩, after]
    | stays _ _ below n after =>
      rw [if_neg, after]
      · exact hs
      · rintro ⟨hfails, hreached⟩
        have hlimit := below hfails hs
        rw [hnext hfails] at hlimit
        omega
  · intro hr
    cases m.turn s hinv with
    | admits asked =>
      obtain ⟨_, _, he', -⟩ := Moment.returned?_eq_some.mp hr
      cases asked.symm.trans he'
    | closes _ _ after =>
      rw [after]
      exact ⟨rfl, rfl⟩
    | reopens outcome returned failed =>
      rw [hr] at returned
      cases returned
      exact absurd rfl failed
    | opens fails =>
      rw [Moment.fails, hr] at fails
      simp at fails
    | stays _ regular => cases regular _ _ hr

/-- With a limit of two, three callers whose calls fail one after another: the second failure opens
    the circuit, and the third comes late. -/
theorem opens_on_streak_twice :
    let s : BreakerSettings := ⟨2, .ofSeconds 60, .ofSeconds 600⟩
    let failure : CircuitEvent := .giveBack 0 (some false)
    let once : List CircuitEvent := [.acquire, .acquire, .acquire, failure]
    (∀ part, part <+: once ++ [failure, failure] →
      streak ((Circuit.start 0).past s part) < UInt32.size) ∧
    ((Circuit.start 0).run s once).breaker.failures = 1 ∧
    (Moment.after s ⟨(Circuit.start 0).run s once, failure⟩).breaker.state = .opened := by
  intro s failure once
  have hfit : ∀ part, part <+: once ++ [failure, failure] →
      streak ((Circuit.start 0).past s part) < UInt32.size :=
    fun part hp => Circuit.streak_lt_of_length (by decide) hp
  obtain ⟨hcounter, hnext⟩ := opens_on_streak s 0 (once ++ [failure, failure]) hfit once
    (List.prefix_append ..)
  refine ⟨hfit, ?_, ?_⟩
  · exact (hcounter (by decide)).1.trans (by decide)
  · exact ((hnext failure ⟨[failure], rfl⟩).1 (by decide)).trans (by decide)

end AccessGateway

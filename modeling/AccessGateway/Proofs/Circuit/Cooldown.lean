import AccessGateway.Proofs.Circuit.Past
import AccessGateway.Proofs.Circuit.SingleTrial
import Mathlib.Data.List.Induction

/-!
# How long a circuit cools down

A circuit that opens admits nobody for a while, and then one trial.  When it opened is kept in whole
milliseconds, so the cooldown may end up to a millisecond before its time, but never after it.
Three things open a circuit: a failure that reaches the limit, a trial that fails, and a trial that
is given up.  From each of them the cooldown counts anew.

## Results

* `Moment.entersOpen_iff` — the three things that open a circuit.
* `Circuit.Cools` — what is known of a circuit that last opened at an instant;
  `Moment.cools_after` — from one moment to the next; `cools_run` — in every interleaving.
* `Cools.refuses`, `Cools.admits_iff` — before the cooldown is over, and after it.
* `cooldown_bounds` — all of it, in every interleaving.
-/

set_option autoImplicit false

namespace AccessGateway

/-! ## The past of a cooldown -/

theorem Breaker.tryAcquire_trial_iff (b : Breaker) (s : BreakerSettings) (now : Instant) :
    (b.tryAcquire s now).2 = some ⟨true⟩ ↔ b.state = .opened ∧ b.cooledDown s now = true := by
  rcases ha : b.tryAcquire s now with ⟨b', permit⟩
  obtain ⟨hs, -, rfl⟩ | ⟨hs, -, rfl⟩ | ⟨hs, hc, -, rfl⟩ | ⟨hs, hc, -, rfl⟩ := tryAcquire_cases ha
  · simp [hs]
  · simp [hs]
  · simp [hc]
  · simp [hs, hc]

namespace Moment

variable {s : BreakerSettings} {m : Moment}

/-- The circuit opened. -/
def entersOpen (s : BreakerSettings) (m : Moment) : Bool :=
  m.circuit.breaker.state ≠ .opened ∧ (m.after s).breaker.state = .opened

/-- Somebody asked for a permit and was given that of a trial. -/
def givesTrial (s : BreakerSettings) (m : Moment) : Bool :=
  m.event = .acquire ∧ (m.circuit.breaker.tryAcquire s m.circuit.now).2 = some ⟨true⟩

theorem now_le_after (s : BreakerSettings) (m : Moment) : m.circuit.now ≤ (m.after s).now := by
  rcases m with ⟨c, e⟩
  unfold after Circuit.step
  cases e with
  | acquire =>
    rcases c.breaker.tryAcquire s c.now with ⟨b, _ | permit⟩
    · exact Nat.le_refl _
    · exact Nat.le_refl _
  | giveBack place outcome =>
    dsimp only
    split
    · exact Nat.le_refl _
    · exact Nat.le_refl _
  | advance span => exact Nat.le_add_right _ _

/-- **The three things that open a circuit.** -/
theorem entersOpen_iff (h : m.circuit.Inv) : m.entersOpen s = true ↔
    (m.fails = true ∧ m.circuit.breaker.state = .closed ∧
      s.maxFailures ≤ (m.circuit.breaker.failures + 1) % UInt32.size) ∨
    m.returned? = some (⟨true⟩, some false) ∨ m.returned? = some (⟨true⟩, none) := by
  unfold entersOpen
  rw [decide_eq_true_iff]
  cases m.turn s h with
  | admits asked state _ after =>
    have hr : m.returned? = none := by
      rw [returned?, asked]
    simp [state, hr, fails]
  | closes returned state after => simp [after, returned, fails]
  | reopens outcome returned failed state after =>
    rcases outcome with _ | _ | _
    · simp [state, after, returned]
    · simp [state, after, returned]
    · exact absurd rfl failed
  | opens fails state reached after => simp [state, after, fails, reached]
  | stays _ regular below n after =>
    rw [after]
    refine iff_of_false (fun hopen => hopen.1 hopen.2) ?_
    rintro (⟨hf, hs, hreached⟩ | hr | hr)
    · exact absurd (below hf hs) (Nat.not_lt.mpr hreached)
    · cases regular _ _ hr
    · cases regular _ _ hr

end Moment

/-- When the circuit last opened. -/
def openedLast? (s : BreakerSettings) (past : List Moment) : Option Instant :=
  (past.find? (·.entersOpen s)).map (·.circuit.now)

/-- Whether a trial was admitted since the circuit last opened. -/
def triedSince (s : BreakerSettings) (past : List Moment) : Bool :=
  (past.takeWhile fun m => !m.entersOpen s).any (·.givesTrial s)

section

variable {s : BreakerSettings} {m : Moment} {past : List Moment}

theorem openedLast?_enters (h : m.entersOpen s = true) :
    openedLast? s (m :: past) = some m.circuit.now := by
  simp [openedLast?, h]

theorem openedLast?_other (h : m.entersOpen s = false) :
    openedLast? s (m :: past) = openedLast? s past := by
  simp [openedLast?, h]

theorem triedSince_enters (h : m.entersOpen s = true) : triedSince s (m :: past) = false := by
  simp [triedSince, h]

theorem triedSince_other (h : m.entersOpen s = false) :
    triedSince s (m :: past) = (m.givesTrial s || triedSince s past) := by
  simp [triedSince, h]

end

/-! ## What is known of a circuit that opened -/

namespace Circuit

/-- What is known of a circuit that last opened at `o`: until a trial is admitted it stays open, and
    the instant is kept in whole milliseconds.  The trial was admitted less than a millisecond
    before the cooldown was over, or later, and the circuit has not been open since. -/
structure Cools (s : BreakerSettings) (c : Circuit) (o : Instant) (tried : Bool) : Prop where
  created_le : c.breaker.createdAt ≤ o
  le_now : o ≤ c.now
  waits : tried = false → c.breaker.state = .opened ∧
    c.breaker.openedAt = Duration.millis (o - c.breaker.createdAt)
  tried : tried = true → c.breaker.state ≠ .opened ∧
    o + s.resetTimeout < c.now + Duration.ofMillis 1

variable {s : BreakerSettings} {c : Circuit} {o : Instant} {tried : Bool}

/-- An instant in whole milliseconds is less than a millisecond too early. -/
theorem ofMillis_millis_bounds (d : Duration) :
    Duration.ofMillis (Duration.millis d) ≤ d ∧
      d < Duration.ofMillis (Duration.millis d) + Duration.ofMillis 1 := by
  unfold Duration.ofMillis Duration.millis
  dsimp only [Duration]
  omega

/-- No permit is given before the last millisecond of the cooldown. -/
theorem Cools.refuses (h : c.Inv) (hc : c.Cools s o tried)
    (hn : c.now + Duration.ofMillis 1 < o + s.resetTimeout) :
    c.breaker.tryAcquire s c.now = (c.breaker, none) := by
  cases tried with
  | true =>
    exact absurd (hc.tried rfl).2 (Nat.lt_asymm hn)
  | false =>
    obtain ⟨hs, hat⟩ := hc.waits rfl
    refine Breaker.tryAcquire_cooling hs (h.cooling ?_)
    have hcreated := hc.created_le
    have hmillis := (ofMillis_millis_bounds (o - c.breaker.createdAt)).2
    rw [hat]
    dsimp only [Instant, Duration] at *
    omega

/-- When the cooldown is over a trial is admitted, unless one was before. -/
theorem Cools.admits_iff (hc : c.Cools s o tried) (hn : o + s.resetTimeout ≤ c.now) :
    (c.breaker.tryAcquire s c.now).2 = some ⟨true⟩ ↔ tried = false := by
  rw [Breaker.tryAcquire_trial_iff]
  cases tried with
  | true => simp [(hc.tried rfl).1]
  | false =>
    obtain ⟨hs, hat⟩ := hc.waits rfl
    have hcreated := hc.created_le
    have hmillis := (ofMillis_millis_bounds (o - c.breaker.createdAt)).1
    have hcooled : c.breaker.cooledDown s c.now = true := by
      unfold Breaker.cooledDown
      rw [hat, decide_eq_true_iff]
      dsimp only [Instant, Duration] at *
      omega
    simp [hs, hcooled]

/-- A trial is admitted in the last millisecond of the cooldown, or when it is over. -/
theorem Cools.over_of_cooled (hc : c.Cools s o false)
    (hcooled : c.breaker.cooledDown s c.now = true) :
    o + s.resetTimeout < c.now + Duration.ofMillis 1 := by
  have hat := (hc.waits rfl).2
  have hcreated := hc.created_le
  have hnow := hc.le_now
  have hmillis := ofMillis_millis_bounds (o - c.breaker.createdAt)
  unfold Breaker.cooledDown at hcooled
  rw [hat, decide_eq_true_iff] at hcooled
  dsimp only [Instant, Duration] at *
  omega

/-- What is known of a circuit after a moment, by what its past was. -/
def CoolsSince (s : BreakerSettings) (c : Circuit) (past : List Moment) : Prop :=
  ∀ o, openedLast? s past = some o → c.Cools s o (triedSince s past)

end Circuit

namespace Moment

variable {s : BreakerSettings} {m : Moment} {past : List Moment}

theorem cools_of_enters (h : m.circuit.Inv) (he : m.entersOpen s = true)
    (hs : (m.after s).breaker.state = .opened)
    (hat : (m.after s).breaker.openedAt =
      Duration.millis (m.circuit.now - (m.after s).breaker.createdAt))
    (hcreated : (m.after s).breaker.createdAt = m.circuit.breaker.createdAt) :
    (m.after s).CoolsSince s (m :: past) := by
  intro o ho
  rw [openedLast?_enters he] at ho
  cases ho
  rw [triedSince_enters he]
  exact ⟨hcreated ▸ h.created_le, m.now_le_after s, fun _ => ⟨hs, hat⟩, nofun⟩

theorem cools_of_other (hc : m.circuit.CoolsSince s past) (he : m.entersOpen s = false)
    (hg : m.givesTrial s = false)
    (hcreated : (m.after s).breaker.createdAt = m.circuit.breaker.createdAt)
    (hstate : (m.after s).breaker.state = .opened ↔ m.circuit.breaker.state = .opened)
    (hat : (m.after s).breaker.openedAt = m.circuit.breaker.openedAt) :
    (m.after s).CoolsSince s (m :: past) := by
  intro o ho
  rw [openedLast?_other he] at ho
  rw [triedSince_other he, hg, Bool.false_or]
  have hbefore := hc o ho
  have hlater := m.now_le_after s
  refine ⟨?_, Nat.le_trans hbefore.le_now hlater, fun ht => ⟨?_, ?_⟩, fun ht => ⟨?_, ?_⟩⟩
  · rw [hcreated]
    exact hbefore.created_le
  · exact hstate.mpr (hbefore.waits ht).1
  · rw [hat, hcreated]
    exact (hbefore.waits ht).2
  · exact mt hstate.mp (hbefore.tried ht).1
  · exact Nat.lt_of_lt_of_le (hbefore.tried ht).2 (Nat.add_le_add_right hlater _)

theorem cools_of_trial (hc : m.circuit.CoolsSince s past) (asked : m.event = .acquire)
    (state : m.circuit.breaker.state = .opened)
    (cooled : m.circuit.breaker.cooledDown s m.circuit.now = true)
    (after : (m.after s).breaker = { m.circuit.breaker with state := .halfOpen }) :
    (m.after s).CoolsSince s (m :: past) := by
  have hother : m.entersOpen s = false := by simp [entersOpen, state]
  have hgives : m.givesTrial s = true := by
    rw [givesTrial, decide_eq_true_iff, Breaker.tryAcquire_trial_iff]
    exact ⟨asked, state, cooled⟩
  intro o ho
  rw [openedLast?_other hother] at ho
  rw [triedSince_other hother, hgives, Bool.true_or]
  have hbefore := hc o ho
  have hlater := m.now_le_after s
  cases ht : triedSince s past with
  | true =>
    rw [ht] at hbefore
    exact absurd state (hbefore.tried rfl).1
  | false =>
    rw [ht] at hbefore
    have hover := hbefore.over_of_cooled cooled
    refine ⟨?_, Nat.le_trans hbefore.le_now hlater, nofun, fun _ => ⟨?_, ?_⟩⟩
    · rw [after]
      exact hbefore.created_le
    · rw [after]
      exact nofun
    · exact Nat.lt_of_lt_of_le hover (Nat.add_le_add_right hlater _)

/-- One moment: an opening sets the instant, a trial ends the wait, and nothing else touches
    either. -/
theorem cools_after (h : m.circuit.Inv) (hc : m.circuit.CoolsSince s past) :
    (m.after s).CoolsSince s (m :: past) := by
  cases m.turn s h with
  | admits asked state cooled after => exact cools_of_trial hc asked state cooled after
  | closes returned state after =>
    refine cools_of_other hc ?_ ?_ (by rw [after]) ?_ (by rw [after])
    · simp [entersOpen, after]
    · simp [givesTrial, Breaker.tryAcquire_trial_iff, state]
    · simp [after, state]
  | reopens outcome returned failed state after =>
    refine cools_of_enters h ?_ (by rw [after]) (by rw [after]) (by rw [after])
    simp [entersOpen, state, after]
  | opens fails state reached after =>
    refine cools_of_enters h ?_ (by rw [after]) (by rw [after]) (by rw [after])
    simp [entersOpen, state, after]
  | stays cooling regular below n after =>
    refine cools_of_other hc ?_ ?_ (by rw [after]) (by rw [after]) (by rw [after])
    · simp [entersOpen, after]
    · rw [givesTrial, decide_eq_false_iff_not, Breaker.tryAcquire_trial_iff]
      rintro ⟨asked, state, cooled⟩
      rw [cooling asked state] at cooled
      cases cooled

end Moment

/-- What is known of a circuit that opened holds in every interleaving. -/
theorem Circuit.cools_run (s : BreakerSettings) (t₀ : Instant) (events : List CircuitEvent) :
    ((start t₀).run s events).CoolsSince s ((start t₀).past s events) := by
  induction events using List.reverseRecOn with
  | nil => exact fun o ho => nomatch ho
  | append_singleton events e ih =>
    rw [run_concat, past_concat]
    exact Moment.cools_after (inv_run s (inv_start t₀) events) ih

/-! ## All interleavings -/

/-- **Cooldown.**  For every settings and every interleaving of requests for permits, permits that
    come back with an outcome or without one, and advances of the clock:

    * if the circuit last opened at `o`, who asks more than a millisecond before the end of the
      cooldown gets no permit and changes nothing, and who asks when it is over gets that of a trial
      exactly if nobody got one since;
    * whatever happens next, the circuit opens exactly if a failure reaches the limit, or a trial
      fails or is given up;
    * after a trial that failed or was given up the circuit is open, and the cooldown counts from
      then. -/
theorem cooldown_bounds (s : BreakerSettings) (t₀ : Instant) (events : List CircuitEvent) :
    let c := (Circuit.start t₀).run s events
    let past := (Circuit.start t₀).past s events
    (∀ o, openedLast? s past = some o →
      (c.now + Duration.ofMillis 1 < o + s.resetTimeout →
        c.breaker.tryAcquire s c.now = (c.breaker, none)) ∧
      (o + s.resetTimeout ≤ c.now →
        ((c.breaker.tryAcquire s c.now).2 = some ⟨true⟩ ↔ triedSince s past = false))) ∧
    ∀ e,
      let m : Moment := ⟨c, e⟩
      (m.entersOpen s = true ↔
        (m.fails = true ∧ c.breaker.state = .closed ∧
          s.maxFailures ≤ (c.breaker.failures + 1) % UInt32.size) ∨
        m.returned? = some (⟨true⟩, some false) ∨ m.returned? = some (⟨true⟩, none)) ∧
      (m.returned? = some (⟨true⟩, some false) ∨ m.returned? = some (⟨true⟩, none) →
        (m.after s).breaker.state = .opened ∧ openedLast? s (m :: past) = some c.now) := by
  intro c past
  have hinv : c.Inv := Circuit.inv_run s (Circuit.inv_start t₀) events
  have hcools : c.CoolsSince s past := Circuit.cools_run s t₀ events
  refine ⟨fun o ho => ⟨(hcools o ho).refuses hinv, (hcools o ho).admits_iff⟩, fun e => ?_⟩
  intro m
  have henters : m.entersOpen s = true ↔ _ := m.entersOpen_iff hinv
  refine ⟨henters, fun hended => ?_⟩
  have hopens : m.entersOpen s = true := henters.mpr (.inr hended)
  exact ⟨(of_decide_eq_true hopens).2, openedLast?_enters hopens⟩

/-- A circuit that opens at its first failure and cools down for ten seconds: at nine seconds it
    gives no permit, at ten that of a trial, and the cooldown starts again when the trial fails. -/
theorem cooldown_bounds_ten_seconds :
    let s : BreakerSettings := ⟨1, .ofSeconds 60, .ofSeconds 10⟩
    let failure : CircuitEvent := .giveBack 0 (some false)
    let opened : List CircuitEvent := [.acquire, failure]
    let cooling := (Circuit.start 0).run s (opened ++ [.advance (.ofSeconds 9)])
    let cooled := (Circuit.start 0).run s (opened ++ [.advance (.ofSeconds 10)])
    let trying := opened ++ [.advance (.ofSeconds 10), .acquire]
    (cooling.breaker.tryAcquire s cooling.now).2 = none ∧
    (cooled.breaker.tryAcquire s cooled.now).2 = some ⟨true⟩ ∧
    openedLast? s ((Circuit.start 0).past s (trying ++ [failure])) =
      some (Duration.ofSeconds 10) := by
  intro s failure opened cooling cooled trying
  obtain ⟨hcooling, -⟩ := cooldown_bounds s 0 (opened ++ [.advance (.ofSeconds 9)])
  obtain ⟨hcooled, -⟩ := cooldown_bounds s 0 (opened ++ [.advance (.ofSeconds 10)])
  obtain ⟨-, htrying⟩ := cooldown_bounds s 0 trying
  refine ⟨?_, ?_, ?_⟩
  · rw [(hcooling 0 (by decide)).1 (by decide)]
  · exact ((hcooled 0 (by decide)).2 (by decide)).mpr (by decide)
  · have hnow : ((Circuit.start 0).run s trying).now = Duration.ofSeconds 10 := by decide
    rw [Circuit.past_concat, ← hnow]
    exact ((htrying failure).2 (by decide)).2

end AccessGateway

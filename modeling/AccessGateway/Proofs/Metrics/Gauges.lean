import AccessGateway.Proofs.Circuit.Growth
import AccessGateway.Proofs.Session.History

/-!
# What the gauges show

A gauge shows the last value that was recorded for it, and operations record a value only when they
have changed it.  So that a gauge is right, every operation that changes the number behind it has to
record the new one: the gauge *follows* the number.

## Results

* `Metrics.Follows` — a gauge follows a number; `Follows.append` — from one step to the next.
* `SessionStore.follows_run` — the session gauge follows the size of the store.
* `Breakers.Shown` — the circuit gauge of a target follows the state of its breaker, and nothing is
  recorded while the breaker stays closed; `Shown.step` — for one step.
* `CircuitBoard.gauge_unset_iff` — the gauge is unset as long as the breaker was never but closed.
* `gauges_show_state` — both gauges, after every run.
-/

set_option autoImplicit false

namespace AccessGateway

/-! ## Gauges -/

namespace Metrics

variable {m m' : Metrics} {before between after : Nat}

theorem activeSessions?_append (m m' : Metrics) :
    (m ++ m').activeSessions? = m'.activeSessions?.or m.activeSessions? := by
  unfold activeSessions?
  rw [List.filterMap_append, List.getLast?_append]

theorem circuitState?_append (m m' : Metrics) (t : String) :
    (m ++ m').circuitState? t = (m'.circuitState? t).or (m.circuitState? t) := by
  unfold circuitState?
  rw [List.filterMap_append, List.getLast?_append]

/-- What was shown since a number was `before` is right now that it is `after`: it is `after`, or
    nothing was shown and the number did not change. -/
def Follows (shown : Option Nat) (before after : Nat) : Prop :=
  shown = some after ∨ (shown = none ∧ after = before)

theorem Follows.append {shown shown' : Option Nat} (h : Follows shown before between)
    (h' : Follows shown' between after) : Follows (shown'.or shown) before after := by
  obtain rfl | ⟨rfl, rfl⟩ := h'
  · exact .inl rfl
  · exact h

end Metrics

open Metrics (Follows)

/-! ## The number of sessions -/

namespace SessionStore

variable {st : SessionStore}

/-- What an event records. -/
def metricsOf (st : SessionStore) (e : StoreEvent) : Metrics :=
  match e.action with
  | .resolve id freshId => (st.resolve id freshId e.now).2.2
  | .get id => (st.get id e.now).2.2
  | .remove id => (st.remove id).2
  | .sweep => (st.sweep e.now).2.2
  | .write _ _ => []

/-- What a run of events records. -/
def metrics (st : SessionStore) : List StoreEvent → Metrics
  | [] => []
  | e :: es => st.metricsOf e ++ (st.answer e).1.metrics es

theorem size_modify (st : SessionStore) (id : String) (f : HeldSession → HeldSession) :
    (st.modify id f).size = st.size := List.length_map _

theorem follows_remove (st : SessionStore) (id : String) :
    Follows (st.remove id).2.activeSessions? st.size (st.remove id).1.size := by
  unfold remove
  split
  · exact .inr ⟨rfl, rfl⟩
  · exact .inl rfl

theorem follows_get (st : SessionStore) (id : String) (now : Instant) :
    Follows (st.get id now).2.2.activeSessions? st.size (st.get id now).1.size := by
  unfold get
  split
  · exact .inr ⟨rfl, rfl⟩
  · split
    · exact follows_remove st id
    · exact .inr ⟨rfl, size_modify _ _ _⟩

/-- A sweep that finds nobody dead removes nobody. -/
theorem follows_sweep (st : SessionStore) (now : Instant) :
    Follows (st.sweep now).2.2.activeSessions? st.size (st.sweep now).1.size := by
  have hle := List.length_filter_le (fun e => !e.2.isExpired now st.idle st.lifetime) st.entries
  unfold sweep size
  dsimp only
  split
  · exact .inl rfl
  · refine .inr ⟨rfl, ?_⟩
    omega

/-- A new session is counted, whatever was recorded of a dead one. -/
theorem gauge_resolve_created {id : Option String} {freshId : String} {now : Instant}
    (h : (st.resolve id freshId now).2.1.created = true) :
    (st.resolve id freshId now).2.2.activeSessions? = some (st.resolve id freshId now).1.size := by
  unfold resolve at h ⊢
  dsimp only at h ⊢
  split at h
  · cases h
  · rw [Metrics.activeSessions?_append]
    rfl

/-- A session that is found is looked up. -/
theorem resolve_found {id : Option String} {freshId : String} {now : Instant}
    (h : (st.resolve id freshId now).2.1.created = false) :
    ∃ key, id = some key ∧ (st.resolve id freshId now).1 = (st.get key now).1 ∧
      (st.resolve id freshId now).2.2 = (st.get key now).2.2 := by
  unfold resolve at h ⊢
  dsimp only at h ⊢
  split at h
  · rename_i key _ _
    exact ⟨key, rfl, rfl, rfl⟩
  · cases h

theorem gauge_created {e : StoreEvent} (h : (st.stepOf e).handedOut?.isSome = true) :
    (st.metricsOf e).activeSessions? = some (st.answer e).1.size := by
  obtain ⟨now, action⟩ := e
  cases action with
  | resolve id freshId =>
    refine gauge_resolve_created ?_
    simpa [stepOf, answer, StoreStep.handedOut?, Option.isSome_iff_exists] using h
  | get id => cases h
  | remove id => cases h
  | sweep => cases h
  | write id session => cases h

/-- One event. -/
theorem follows_answer (st : SessionStore) (e : StoreEvent) :
    Follows (st.metricsOf e).activeSessions? st.size (st.answer e).1.size := by
  obtain ⟨now, action⟩ := e
  cases action with
  | resolve id freshId =>
    cases hc : (st.resolve id freshId now).2.1.created with
    | true => exact .inl (gauge_resolve_created hc)
    | false =>
      obtain ⟨key, -, hstore, hevents⟩ := resolve_found hc
      have hfollows := follows_get st key now
      rw [← hstore, ← hevents] at hfollows
      exact hfollows
  | get id => exact follows_get st id now
  | remove id => exact follows_remove st id
  | sweep => exact follows_sweep st now
  | write id session => exact .inr ⟨rfl, size_modify _ _ _⟩

theorem follows_run (st : SessionStore) (events : List StoreEvent) :
    Follows (st.metrics events).activeSessions? st.size (st.after events).size := by
  induction events generalizing st with
  | nil => exact .inr ⟨rfl, rfl⟩
  | cons e es ih =>
    rw [metrics, Metrics.activeSessions?_append]
    exact (follows_answer st e).append (ih _)

/-- Once a session was made, the gauge shows how many there are. -/
theorem gauge_of_created (events : List StoreEvent)
    (h : (st.history events).any (·.handedOut?.isSome) = true) :
    (st.metrics events).activeSessions? = some (st.after events).size := by
  induction events generalizing st with
  | nil => cases h
  | cons e es ih =>
    rw [metrics, Metrics.activeSessions?_append]
    rw [history, List.any_cons, Bool.or_eq_true] at h
    obtain hnow | hlater := h
    · -- if nothing was recorded since, there are as many as when it was made
      obtain hrest | ⟨hrest, hsize⟩ := follows_run (st.answer e).1 es
      · rw [hrest]
        rfl
      · rw [hrest, gauge_created hnow]
        exact congrArg some hsize.symm
    · rw [ih hlater]
      rfl

/-- Nothing is recorded of a store in which there is nobody. -/
theorem gauge_of_nobody (hsize : st.entries = []) {e : StoreEvent}
    (h : ¬(st.stepOf e).handedOut?.isSome = true) :
    st.metricsOf e = [] ∧ (st.answer e).1.entries = [] := by
  have hfind : ∀ id, st.find? id = none := by simp [find?, hsize]
  obtain ⟨now, action⟩ := e
  cases action with
  | resolve id freshId =>
    have hfound : (st.resolve id freshId now).2.1.created = false := by
      simpa [stepOf, answer, StoreStep.handedOut?] using h
    obtain ⟨key, -, hstore, hevents⟩ := resolve_found hfound
    have hget : st.get key now = (st, none, []) := by simp [get, hfind]
    rw [hget] at hstore hevents
    exact ⟨hevents, (congrArg _ hstore).trans hsize⟩
  | get id => simp [metricsOf, answer, get, hfind, hsize]
  | remove id => simp [metricsOf, answer, remove, hfind, hsize]
  | sweep => simp [metricsOf, answer, sweep, size, hsize]
  | write id session => simp [metricsOf, answer, save, modify, hsize]

theorem gauge_of_none_created (hsize : st.entries = []) (events : List StoreEvent)
    (h : ¬(st.history events).any (·.handedOut?.isSome) = true) : st.metrics events = [] := by
  induction events generalizing st with
  | nil => rfl
  | cons e es ih =>
    rw [history, List.any_cons, Bool.or_eq_true, not_or] at h
    obtain ⟨hquiet, hnobody⟩ := gauge_of_nobody hsize h.1
    rw [metrics, hquiet, ih hnobody h.2, List.append_nil]

end SessionStore

/-! ## The state of a circuit -/

theorem CircuitState.code_inj {a b : CircuitState} (h : a.code = b.code) : a = b := by
  cases a <;> cases b <;> first | rfl | cases h

namespace Breaker

variable {s : BreakerSettings} {now : Instant}

theorem circuitState?_changes (name t : String) (before after : Breaker) :
    (changes name before after).circuitState? t =
      if t = name ∧ before.state ≠ after.state then some after.state.code else none := by
  unfold changes
  by_cases hs : before.state = after.state
  · simp [hs, Metrics.circuitState?]
  · by_cases ht : name = t
    · simp [hs, ht, Metrics.circuitState?]
    · simp [hs, ht, Ne.symm ht, Metrics.circuitState?]

/-- Asking does not change a closed circuit. -/
theorem tryAcquire_closed {b : Breaker} (h : b.state = .closed) : (b.tryAcquire s now).1 = b := by
  unfold tryAcquire
  rw [h]

end Breaker

namespace Breakers

variable {t target : String} {r r' r'' : Breakers} {b : Breaker} {m m' : Metrics} {now : Instant}

/-- The state that a target's circuit is in; one that was not made yet is to be closed. -/
def stateOf (r : Breakers) (t : String) : CircuitState :=
  ((r.find? t).map (·.state)).getD .closed

theorem stateOf_eq_closed :
    r.stateOf t = .closed ↔ ∀ b, r.find? t = some b → b.state = .closed := by
  unfold stateOf
  cases r.find? t <;> simp

theorem state_get (r : Breakers) (target : String) (now : Instant) :
    (r.get target now).2.state = r.stateOf target := by
  rw [get_snd, stateOf]
  cases r.find? target <;> rfl

theorem Puts.stateOf (hp : r.Puts target b r') (t : String) :
    r'.stateOf t = if t = target then b.state else r.stateOf t := by
  unfold Breakers.stateOf
  rw [hp.found]
  split <;> rfl

/-- The gauge of a target follows what `r` has become, and the events `m` say nothing of a circuit
    that is closed before and after. -/
structure Shown (t : String) (r r' : Breakers) (m : Metrics) : Prop where
  follows : Follows (m.circuitState? t) (r.stateOf t).code (r'.stateOf t).code
  quiet : r.stateOf t = .closed → r'.stateOf t = .closed → m.circuitState? t = none

theorem Shown.refl (t : String) (r : Breakers) : r.Shown t r [] :=
  ⟨.inr ⟨rfl, rfl⟩, fun _ _ => rfl⟩

/-- One operation after another, of which the first cannot open a closed circuit. -/
theorem Shown.append (h : Shown t r r' m) (h' : Shown t r' r'' m')
    (hstays : r.stateOf t = .closed → r'.stateOf t = .closed) : Shown t r r'' (m ++ m') := by
  refine ⟨?_, fun hbefore hafter => ?_⟩
  · rw [Metrics.circuitState?_append]
    exact h.follows.append h'.follows
  · have hbetween := hstays hbefore
    rw [Metrics.circuitState?_append, h.quiet hbefore hbetween, h'.quiet hbetween hafter]
    rfl

/-- What is done with one breaker is recorded if its state changed. -/
theorem Shown.of_puts (hp : r.Puts target b r')
    (hm : m = Breaker.changes target (r.get target now).2 b) : Shown t r r' m := by
  have hshown : m.circuitState? t =
      if t = target ∧ r.stateOf target ≠ b.state then some b.state.code else none := by
    rw [hm, Breaker.circuitState?_changes, state_get]
  have hafter := hp.stateOf t
  by_cases ht : t = target
  · subst ht
    rw [if_pos rfl] at hafter
    by_cases hs : r.stateOf t = b.state
    · rw [if_neg fun h => h.2 hs] at hshown
      exact ⟨.inr ⟨hshown, by rw [hafter, hs]⟩, fun _ _ => hshown⟩
    · rw [if_pos ⟨rfl, hs⟩] at hshown
      refine ⟨.inl (by rw [hshown, hafter]), fun hbefore hclosed => ?_⟩
      exact absurd (hbefore.trans (hclosed.symm.trans hafter)) hs
  · rw [if_neg fun h => ht h.1] at hshown
    rw [if_neg ht] at hafter
    exact ⟨.inr ⟨hshown, by rw [hafter]⟩, fun _ _ => hshown⟩

theorem Shown.acquire (t : String) (r : Breakers) (target : String) (now : Instant) :
    Shown t r (r.acquire target now).1 (r.acquire target now).2.2 :=
  .of_puts (puts_acquire r target now) (acquire_events r target now)

theorem Shown.takeBack (t : String) (r : Breakers) (p : TargetPermit) (outcome : Option Bool)
    (now : Instant) : Shown t r (r.takeBack p outcome now).1 (r.takeBack p outcome now).2 :=
  .of_puts (puts_takeBack r p outcome now) (takeBack_events p outcome)

theorem stateOf_get (t target : String) (now : Instant) :
    (r.get target now).1.stateOf t = r.stateOf t := by
  rw [(puts_get r target now).stateOf, state_get]
  split
  · rename_i ht
    rw [ht]
  · rfl

/-- A closed circuit admits, and stays closed. -/
theorem stateOf_acquire (h : r.stateOf t = .closed) (target : String) (now : Instant) :
    (r.acquire target now).1.stateOf t = .closed := by
  rw [(puts_acquire r target now).stateOf]
  split
  · rename_i ht
    rw [ht, ← state_get r target now] at h
    rw [Breaker.tryAcquire_closed h, h]
  · exact h

end Breakers

namespace CircuitBoard

variable {ε α : Type} {t : String} {c : CircuitBoard}

theorem shown_release (t : String) (c : CircuitBoard) (place : Nat) (outcome : Option Bool) :
    let x := (c.release place outcome : _ × List (String × BoardAnswer ε α) × _)
    c.breakers.Shown t x.1.breakers x.2.2 := by
  unfold release
  cases c.held place with
  | none => exact .refl t c.breakers
  | some p => exact .takeBack t c.breakers p outcome c.now

/-- One step. -/
theorem shown_step (t : String) (c : CircuitBoard) (e : BoardStep ε α) :
    c.breakers.Shown t (c.step e).1.breakers (c.step e).2.2 := by
  cases e with
  | get target =>
    have hsame : (c.step (.get target : BoardStep ε α)).1.breakers.stateOf t =
      c.breakers.stateOf t := Breakers.stateOf_get t target c.now
    exact ⟨.inr ⟨rfl, by rw [hsame]⟩, fun _ _ => rfl⟩
  | acquire place target =>
    have hasked := Breakers.Shown.acquire t c.breakers target c.now
    cases ha : (c.breakers.acquire target c.now).2.1 with
    | none =>
      rw [step_acquire_none rfl ha]
      exact hasked
    | some p =>
      rw [step_acquire_some rfl ha]
      exact hasked.append
        (shown_release (ε := ε) (α := α) t
          { c with breakers := (c.breakers.acquire target c.now).1 } place none)
        fun h => Breakers.stateOf_acquire h target c.now
  | record place success => exact shown_release t c place (some success)
  | drop place => exact shown_release t c place none
  | call target span outcome isFailure =>
    rw [step_call]
    have hasked := Breakers.Shown.acquire t c.breakers target c.now
    dsimp only
    split
    · exact hasked
    · exact hasked.append (.takeBack t _ _ _ _) fun h => Breakers.stateOf_acquire h target c.now
  | sleep span => exact .refl t c.breakers

theorem follows_run (t : String) (c : CircuitBoard) (steps : List (BoardStep ε α)) :
    Follows ((c.events steps).circuitState? t) (c.breakers.stateOf t).code
      ((c.run steps).breakers.stateOf t).code := by
  induction steps generalizing c with
  | nil => exact .inr ⟨rfl, rfl⟩
  | cons e es ih =>
    rw [events, Metrics.circuitState?_append]
    exact (shown_step t c e).follows.append (ih _)

/-- The gauge is unset as long as the circuit was never but closed. -/
theorem gauge_unset_iff (hclosed : c.breakers.stateOf t = .closed)
    (steps : List (BoardStep ε α)) :
    (c.events steps).circuitState? t = none ↔
      ∀ before, before <+: steps → (c.run before).breakers.stateOf t = .closed := by
  constructor
  · rintro hunset before ⟨after, rfl⟩
    rw [events_append, Metrics.circuitState?_append, Option.or_eq_none_iff] at hunset
    obtain hshown | ⟨-, hsame⟩ := follows_run t c before
    · rw [hshown] at hunset
      cases hunset.2
    · exact (CircuitState.code_inj hsame).trans hclosed
  · intro hnever
    induction steps generalizing c with
    | nil => rfl
    | cons e es ih =>
      -- the circuit is closed after this step too, so that the step recorded nothing of it
      have hstep : (c.step e).1.breakers.stateOf t = .closed :=
        hnever [e] (List.prefix_append [e] es)
      have hrest := ih hstep fun before hbefore =>
        hnever (e :: before) (List.cons_prefix_cons.mpr ⟨rfl, hbefore⟩)
      rw [events, Metrics.circuitState?_append, hrest, (shown_step t c e).quiet hclosed hstep]
      rfl

/-- What the gauge shows is the state of a breaker that was made. -/
theorem gauge_set (hclosed : c.breakers.stateOf t = .closed) (steps : List (BoardStep ε α))
    {code : Nat} (h : (c.events steps).circuitState? t = some code) :
    ∃ b, (c.run steps).breakers.find? t = some b ∧ code = b.state.code := by
  cases hfind : (c.run steps).breakers.find? t with
  | some b =>
    refine ⟨b, rfl, ?_⟩
    obtain hshown | ⟨hunset, -⟩ := follows_run t c steps
    · rw [h, Breakers.stateOf, hfind] at hshown
      exact Option.some.inj hshown
    · rw [h] at hunset
      cases hunset
  | none =>
    -- a target without a breaker never had one, so its circuit was never but closed
    have hunset : (c.events steps).circuitState? t = none := by
      refine (gauge_unset_iff hclosed steps).mpr ?_
      rintro before ⟨after, rfl⟩
      rw [run_append] at hfind
      cases hbefore : (c.run before).breakers.find? t with
      | none => rw [Breakers.stateOf, hbefore]; rfl
      | some b =>
        obtain ⟨b', hb', -⟩ := (grows_run (c.run before) after).kept t b hbefore
        rw [hfind] at hb'
        cases hb'
    rw [h] at hunset
    cases hunset

end CircuitBoard

/-! ## Both gauges -/

/-- **Gauges show the true state.**  After every run of a session store, the session gauge shows how
    many sessions there are, and it is unset if none was ever made.  After every run of the breakers
    of any targets, the circuit gauge of a target is unset if and only if its breaker was closed all
    the time; and if it is set, it shows the code of the state in which the target's breaker is. -/
theorem gauges_show_state :
    (∀ (idle lifetime : Duration) (events : List StoreEvent),
      let store := SessionStore.empty idle lifetime
      (store.metrics events).activeSessions? =
        if (store.history events).any (·.handedOut?.isSome) then some (store.after events).size
        else none) ∧
    ∀ (ε α : Type) (settings : BreakerSettings) (t₀ : Instant) (steps : List (BoardStep ε α))
      (t : String),
      let start := CircuitBoard.start settings t₀
      let shown := (start.events steps).circuitState? t
      (shown = none ↔ ∀ before b, before <+: steps →
        (start.run before).breakers.find? t = some b → b.state = .closed) ∧
      ∀ code, shown = some code →
        ∃ b, (start.run steps).breakers.find? t = some b ∧ code = b.state.code := by
  refine ⟨fun idle lifetime events => ?_, fun ε α settings t₀ steps t => ⟨?_, ?_⟩⟩
  · dsimp only
    split
    · rename_i hmade
      exact SessionStore.gauge_of_created events hmade
    · rename_i hnone
      rw [SessionStore.gauge_of_none_created rfl events hnone]
      rfl
  · rw [CircuitBoard.gauge_unset_iff rfl]
    simp only [Breakers.stateOf_eq_closed]
    exact ⟨fun h before b hbefore => h before hbefore b,
      fun h before hbefore b => h before b hbefore⟩
  · exact fun code => CircuitBoard.gauge_set rfl steps

end AccessGateway

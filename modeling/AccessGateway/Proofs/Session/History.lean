import AccessGateway.Proofs.Session.Lifetime

/-!
# The history of a store

A store lives through requests that resolve their sessions, through look-ups, removals and sweeps,
and the state of its sessions is put down in between.  The history of such a run has what the store
replied to every event.  What is known of an id changes only with the steps that hand it out, find a
session under it, put its state down or remove it; so the history is all there is to know.

## Results

* `SessionStore.Knows` — what it is to know who is alive under an id, and what putting a session
  down and removing one make of it.
* `StoreStep.note` — how a step changes what is known of an id.
* `SessionStore.Knows.answer` — one step: what was known, and the step, say what is known after it.
* `SessionStore.Knows.after` — a whole run, read off its history.
-/

set_option autoImplicit false

namespace AccessGateway

/-! ## What is known of an id -/

namespace SessionStore

variable {st : SessionStore} {id freshId : String} {asked : Option String} {now later : Instant}
  {known : Option HeldSession}

/-- What is known of an id says who is alive under it from now on. -/
def Knows (st : SessionStore) (id : String) (now : Instant) (known : Option HeldSession) : Prop :=
  ∀ t, now ≤ t → st.alive? id t = known.filter (·.alive st.limits t)

theorem knows_alive? (st : SessionStore) (id : String) (now : Instant) :
    st.Knows id now (st.alive? id now) := fun _ ht => (alive?_later ht).symm

theorem Knows.mono (h : st.Knows id now known) (hle : now ≤ later) : st.Knows id later known :=
  fun t ht => h t (Nat.le_trans hle ht)

/-- Whoever is alive is known. -/
theorem Knows.eq_some (h : st.Knows id now known) {held : HeldSession}
    (hs : st.alive? id now = some held) : known = some held := by
  rw [h now (Nat.le_refl _)] at hs
  exact (Option.filter_eq_some_iff.mp hs).1

theorem resolve_session_eq :
    (st.resolve asked freshId now).2.1.session = (enter (st.sought? asked now) now).session := by
  cases hs : st.sought? asked now with
  | none =>
    rw [resolve_of_none hs]
    rfl
  | some held =>
    obtain ⟨key, rfl, hkey⟩ := Option.bind_eq_some_iff.mp hs
    rw [resolve_of_some hkey]
    rfl

/-- A request that gets an id asked for it, or found nobody. -/
theorem Knows.sought? (h : st.Knows id now known)
    (hid : (st.resolve asked freshId now).2.1.id = id) :
    st.sought? asked now =
      if asked = some id then known.filter (·.alive st.limits now) else none := by
  rw [← h now (Nat.le_refl _)]
  split
  · rename_i hasked
    rw [hasked]
    rfl
  · rename_i hother
    cases hs : st.sought? asked now with
    | none => rfl
    | some held =>
      obtain ⟨key, rfl, hkey⟩ := Option.bind_eq_some_iff.mp hs
      rw [resolve_of_some hkey] at hid
      exact absurd (congrArg some hid) hother

/-- A session that a request was given and put down again is there as it was put down. -/
theorem knows_kept (hid : (st.resolve asked freshId now).2.1.id = id) (s : Session) :
    ((st.resolve asked freshId now).1.save id s).Knows id now
      (some { enter (st.sought? asked now) now with session := s }) := by
  intro t ht
  have hlimits : ((st.resolve asked freshId now).1.save id s).limits = st.limits :=
    limits_resolve _ _ _
  rw [hlimits, alive?_save, if_pos rfl, alive?_resolve asked freshId ht,
    if_pos hid.symm]
  exact (HeldSession.filter_alive_map s _).symm

/-- All others stay as they were. -/
theorem Knows.kept (h : st.Knows id now known)
    (hid : (st.resolve asked freshId now).2.1.id ≠ id) (s : Session) :
    ((st.resolve asked freshId now).1.save (st.resolve asked freshId now).2.1.id s).Knows id now
      known := by
  intro t ht
  have hlimits : ((st.resolve asked freshId now).1.save (st.resolve asked freshId now).2.1.id
      s).limits = st.limits := limits_resolve _ _ _
  rw [hlimits, alive?_save, if_neg (Ne.symm hid), alive?_resolve asked freshId ht,
    if_neg (Ne.symm hid)]
  exact h t ht

theorem knows_removed (st : SessionStore) (id : String) (now : Instant) :
    (st.remove id).1.Knows id now none := by
  intro t _
  rw [alive?_remove, if_pos rfl]
  rfl

theorem Knows.removed (h : st.Knows id now known) {key : String} (hid : key ≠ id) :
    (st.remove key).1.Knows id now known := by
  intro t ht
  rw [limits_remove, alive?_remove, if_neg (Ne.symm hid)]
  exact h t ht

end SessionStore

/-! ## Runs and histories -/

/-- What is asked of a store. -/
inductive StoreAction where
  /-- The session of a request is wanted: the one under `id`, or else a new one under `freshId`. -/
  | resolve (id : Option String) (freshId : String)
  | get (id : String)
  | remove (id : String)
  | sweep
  /-- Whoever works on a session puts its new state down. -/
  | write (id : String) (session : Session)
deriving DecidableEq

structure StoreEvent where
  now : Instant
  action : StoreAction
deriving DecidableEq

/-- What a store replies. -/
inductive StoreReply where
  | resolved (r : SessionStore.Resolved)
  | looked (found : Option Session)
  | silence
deriving DecidableEq

/-- An event and the reply to it. -/
structure StoreStep where
  event : StoreEvent
  reply : StoreReply
deriving DecidableEq

namespace SessionStore

/-- One event. -/
def answer (st : SessionStore) (e : StoreEvent) : SessionStore × StoreReply :=
  match e.action with
  | .resolve id freshId =>
    let (st, r, _) := st.resolve id freshId e.now
    (st, .resolved r)
  | .get id =>
    let (st, found, _) := st.get id e.now
    (st, .looked found)
  | .remove id => ((st.remove id).1, .silence)
  | .sweep => ((st.sweep e.now).1, .silence)
  | .write id session => (st.save id session, .silence)

/-- The step that an event makes of a store. -/
def stepOf (st : SessionStore) (e : StoreEvent) : StoreStep := ⟨e, (st.answer e).2⟩

/-- The store after a row of events. -/
def after (st : SessionStore) (events : List StoreEvent) : SessionStore :=
  events.foldl (fun st e => (st.answer e).1) st

/-- The events of a run with the replies to them. -/
def history (st : SessionStore) : List StoreEvent → List StoreStep
  | [] => []
  | e :: es => st.stepOf e :: (st.answer e).1.history es

end SessionStore

/-! ## What a history says -/

namespace StoreStep

/-- The id that the step handed out. -/
def handedOut? (x : StoreStep) : Option String :=
  match x.reply with
  | .resolved r => if r.created then some r.id else none
  | _ => none

/-- The id that the step found a session under. -/
def foundId? (x : StoreStep) : Option String :=
  match x.event.action, x.reply with
  | .resolve _ _, .resolved r => if r.created then none else some r.id
  | .get id, .looked (some _) => some id
  | _, _ => none

/-- The state that the step put down for an id. -/
def written? (id : String) (x : StoreStep) : Option Session :=
  match x.event.action with
  | .write key session => if key = id then some session else none
  | _ => none

/-- When the step found a session under an id. -/
def foundAt? (id : String) (x : StoreStep) : Option Instant :=
  if x.foundId? = some id then some x.event.now else none

end StoreStep

/-! ## One step -/

namespace StoreStep

variable {id : String} {x : StoreStep}

/-- What is known of an id after a step: the session it was handed out for, when that was and when
    it was last found. -/
def note (id : String) (known : Option HeldSession) (x : StoreStep) : Option HeldSession :=
  if x.handedOut? = some id then some ⟨.fresh, x.event.now, 0⟩
  else if x.event.action = .remove id then none
  else known.map fun h =>
    { session := (x.written? id).getD h.session
      createdAt := h.createdAt
      lastSeen := ((x.foundAt? id).map fun t => Duration.millis (t - h.createdAt)).getD h.lastSeen }

theorem note_none (h : x.handedOut? ≠ some id) : note id none x = none := by
  simp [note, h]

/-- The step hands an id out, finds a session under it, removes it or puts its state down. -/
def Concerns (id : String) (x : StoreStep) : Prop :=
  x.handedOut? = some id ∨ x.foundId? = some id ∨ x.event.action = .remove id ∨
    (x.written? id).isSome = true

theorem note_of_foreign (h : ¬x.Concerns id) (known : Option HeldSession) :
    note id known x = known := by
  simp only [Concerns, not_or, Bool.not_eq_true, Option.isSome_eq_false_iff,
    Option.isNone_iff_eq_none] at h
  obtain ⟨hout, hfound, hremove, hwrite⟩ := h
  simp [note, hout, hremove, hwrite, foundAt?, hfound]

end StoreStep

namespace SessionStore

variable {st : SessionStore} {id : String} {known : Option HeldSession} {now later : Instant}
  {e : StoreEvent} {events : List StoreEvent}

theorem limits_answer : (st.answer e).1.limits = st.limits := by
  unfold answer
  split
  · exact limits_resolve _ _ _
  · exact limits_get
  · exact limits_remove
  · rfl
  · rfl

theorem Distinct.answer (h : st.Distinct) (e : StoreEvent) : (st.answer e).1.Distinct := by
  unfold SessionStore.answer
  split
  · exact h.resolve _ _ _
  · exact h.get _ _
  · exact h.remove _
  · exact h.sweep _
  · exact h.save _ _

/-- A step that does not concern an id leaves what is known of it. -/
theorem Knows.foreign (h : st.Knows id e.now known) (hstep : ¬(st.stepOf e).Concerns id)
    (hsame : ∀ t, e.now ≤ t → (st.answer e).1.alive? id t = st.alive? id t) :
    (st.answer e).1.Knows id e.now (StoreStep.note id known (st.stepOf e)) := by
  intro t ht
  rw [StoreStep.note_of_foreign hstep, hsame t ht, h t ht, limits_answer]

theorem Knows.resolve (h : st.Knows id now known) (asked : Option String) (freshId : String) :
    let e : StoreEvent := ⟨now, .resolve asked freshId⟩
    (st.answer e).1.Knows id now (StoreStep.note id known (st.stepOf e)) := by
  intro e
  have hafter : ∀ t, now ≤ t → (st.answer e).1.alive? id t =
      if id = (st.resolve asked freshId now).2.1.id then
        (some (enter (st.sought? asked now) now)).filter (·.alive st.limits t)
      else st.alive? id t := fun t ht => alive?_resolve asked freshId ht
  cases hsought : st.sought? asked now with
  | none =>
    rw [resolve_of_none hsought, hsought] at hafter
    have hstep : st.stepOf e = ⟨e, .resolved ⟨freshId, .fresh, true⟩⟩ := by
      simp [e, stepOf, answer, resolve_of_none hsought]
    by_cases hid : id = freshId
    · intro t ht
      have hnow := hafter t ht
      rw [if_pos hid] at hnow
      rw [hstep, limits_answer]
      refine hnow.trans ?_
      simp [e, StoreStep.note, StoreStep.handedOut?, hid, enter]
    · refine h.foreign ?_ fun t ht => (hafter t ht).trans (if_neg hid)
      simp [hstep, e, StoreStep.Concerns, StoreStep.handedOut?, StoreStep.foundId?,
        StoreStep.written?, Ne.symm hid]
  | some held =>
    obtain ⟨key, rfl, hkey⟩ := Option.bind_eq_some_iff.mp hsought
    rw [resolve_of_some hkey, hsought] at hafter
    have hstep : st.stepOf e = ⟨e, .resolved ⟨key, held.session, false⟩⟩ := by
      simp [e, stepOf, answer, resolve_of_some hkey]
    by_cases hid : id = key
    · subst hid
      intro t ht
      have hnow := hafter t ht
      rw [if_pos rfl] at hnow
      rw [hstep, limits_answer, h.eq_some hkey]
      refine hnow.trans ?_
      simp [e, StoreStep.note, StoreStep.handedOut?, StoreStep.foundAt?, StoreStep.foundId?,
        StoreStep.written?, HeldSession.touch, enter]
    · refine h.foreign ?_ fun t ht => (hafter t ht).trans (if_neg hid)
      simp [hstep, e, StoreStep.Concerns, StoreStep.handedOut?, StoreStep.foundId?,
        StoreStep.written?, Ne.symm hid]

theorem Knows.get (h : st.Knows id now known) (key : String) :
    let e : StoreEvent := ⟨now, .get key⟩
    (st.answer e).1.Knows id now (StoreStep.note id known (st.stepOf e)) := by
  intro e
  have hafter : ∀ t, (st.answer e).1.alive? id t =
      if id = key then ((st.alive? id now).map (·.touch now)).filter (·.alive st.limits t)
      else st.alive? id t := fun t => alive?_get
  have hstep : st.stepOf e = ⟨e, .looked ((st.alive? key now).map (·.session))⟩ := by
    simp [e, stepOf, answer, get_eq]
  by_cases hid : id = key
  · subst hid
    cases hliving : st.alive? id now with
    | some held =>
      intro t ht
      have hnow := hafter t
      rw [if_pos rfl, hliving] at hnow
      rw [hstep, hliving, limits_answer, h.eq_some hliving]
      refine hnow.trans ?_
      simp [e, StoreStep.note, StoreStep.handedOut?, StoreStep.foundAt?, StoreStep.foundId?,
        StoreStep.written?, HeldSession.touch]
    | none =>
      -- a dead session is removed, and would not be alive later
      refine h.foreign ?_ fun t ht => ?_
      · simp [hstep, hliving, e, StoreStep.Concerns, StoreStep.handedOut?, StoreStep.foundId?,
          StoreStep.written?]
      · rw [hafter, if_pos rfl, hliving, alive?_eq_none_of_later ht hliving]
        rfl
  · refine h.foreign ?_ fun t _ => (hafter t).trans (if_neg hid)
    cases hliving : st.alive? key now <;>
      simp [hstep, hliving, e, StoreStep.Concerns, StoreStep.handedOut?, StoreStep.foundId?,
        StoreStep.written?, Ne.symm hid]

theorem Knows.remove (h : st.Knows id now known) (key : String) :
    let e : StoreEvent := ⟨now, .remove key⟩
    (st.answer e).1.Knows id now (StoreStep.note id known (st.stepOf e)) := by
  intro e
  by_cases hid : key = id
  · have hnote : StoreStep.note id known (st.stepOf e) = none := by
      simp [e, stepOf, answer, StoreStep.note, StoreStep.handedOut?, hid]
    rw [hnote, ← hid]
    exact knows_removed st key now
  · have hnote : StoreStep.note id known (st.stepOf e) = known := by
      refine StoreStep.note_of_foreign ?_ known
      simp [e, stepOf, answer, StoreStep.Concerns, StoreStep.handedOut?, StoreStep.foundId?,
        StoreStep.written?, hid]
    rw [hnote]
    exact h.removed hid

theorem Knows.sweep (h : st.Knows id now known) (hdistinct : st.Distinct) :
    let e : StoreEvent := ⟨now, .sweep⟩
    (st.answer e).1.Knows id now (StoreStep.note id known (st.stepOf e)) := by
  intro e
  refine h.foreign ?_ fun t ht => alive?_sweep hdistinct ht
  simp [e, stepOf, answer, StoreStep.Concerns, StoreStep.handedOut?, StoreStep.foundId?,
    StoreStep.written?]

theorem Knows.write (h : st.Knows id now known) (key : String) (session : Session) :
    let e : StoreEvent := ⟨now, .write key session⟩
    (st.answer e).1.Knows id now (StoreStep.note id known (st.stepOf e)) := by
  intro e
  have hafter : ∀ t, (st.answer e).1.alive? id t =
      if id = key then (st.alive? id t).map ({ · with session }) else st.alive? id t :=
    fun t => alive?_save session
  by_cases hid : id = key
  · intro t ht
    rw [hafter, if_pos hid, h t ht, limits_answer, ← HeldSession.filter_alive_map]
    simp [e, stepOf, answer, StoreStep.note, StoreStep.handedOut?, StoreStep.foundAt?,
      StoreStep.foundId?, StoreStep.written?, hid]
  · refine h.foreign ?_ fun t _ => (hafter t).trans (if_neg hid)
    simp [e, stepOf, answer, StoreStep.Concerns, StoreStep.handedOut?, StoreStep.foundId?,
      StoreStep.written?, Ne.symm hid]

/-- **One step**: what was known of an id, and the step itself, say what is known after it. -/
theorem Knows.answer (h : st.Knows id e.now known) (hdistinct : st.Distinct) :
    (st.answer e).1.Knows id e.now (StoreStep.note id known (st.stepOf e)) := by
  obtain ⟨now, action⟩ := e
  cases action with
  | resolve asked freshId => exact h.resolve asked freshId
  | get key => exact h.get key
  | remove key => exact h.remove key
  | sweep => exact h.sweep hdistinct
  | write key session => exact h.write key session

/-! ## Whole runs -/

/-- The instants of events never go back, beginning with `now`. -/
def OrderedFrom (now : Instant) (events : List StoreEvent) : Prop :=
  events.Pairwise (·.now ≤ ·.now) ∧ ∀ e ∈ events, now ≤ e.now

theorem OrderedFrom.tail (h : OrderedFrom now (e :: events)) : OrderedFrom e.now events :=
  ⟨(List.pairwise_cons.mp h.1).2, (List.pairwise_cons.mp h.1).1⟩

theorem distinct_after (h : st.Distinct) (events : List StoreEvent) :
    (st.after events).Distinct := by
  unfold after
  induction events generalizing st with
  | nil => exact h
  | cons e es ih => exact ih (h.answer e)

theorem limits_after (st : SessionStore) (events : List StoreEvent) :
    (st.after events).limits = st.limits := by
  unfold after
  induction events generalizing st with
  | nil => rfl
  | cons e es ih => exact (ih _).trans limits_answer

theorem Knows.after (h : st.Knows id now known) (hdistinct : st.Distinct)
    (hordered : OrderedFrom now events) (hlater : ∀ e ∈ events, e.now ≤ later)
    (hle : now ≤ later) :
    (st.after events).Knows id later ((st.history events).foldl (StoreStep.note id) known) := by
  induction events generalizing st now known with
  | nil => exact h.mono hle
  | cons e es ih =>
    have hnow : now ≤ e.now := hordered.2 e List.mem_cons_self
    have hstep := (h.mono hnow).answer hdistinct
    refine ih hstep (hdistinct.answer e) hordered.tail ?_ (hlater e List.mem_cons_self)
    exact fun e' he' => hlater e' (List.mem_cons_of_mem _ he')

end SessionStore

end AccessGateway

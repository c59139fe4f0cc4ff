import AccessGateway.Proofs.Session.History

/-!
# What a look-up finds

Whether a look-up finds a session, and in which state, can be read off the history of a run: the id
was handed out and not removed since, and the session has outlived neither of its limits.  Sweeps
have no part in it.

## Results

* `recorded_eq_some_iff` — what a history has on record of an id.
* `SessionStore.alive?_eq_some_iff` — the living session under an id, read off the history.
* `SessionStore.not_found_of_dead` — who is dead is not found again.
* `SessionStore.history_unswept` — a run without its sweeps.
* `session_lookup_history` — all look-ups of a run.
-/

set_option autoImplicit false

namespace AccessGateway

/-! ## What a history says -/

/-- According to a history an id was handed out at `c` and not removed in all that happened
    `since`. -/
def Issued (past : List StoreStep) (id : String) (c : Instant) (since : List StoreStep) : Prop :=
  ∃ before first, past = before ++ first :: since ∧ first.handedOut? = some id ∧
    first.event.now = c ∧ ∀ x ∈ since, x.event.action ≠ .remove id

/-- The last time a session was found since it was handed out at `c`, in whole milliseconds
    after `c`. -/
def lastFound (id : String) (c : Instant) (since : List StoreStep) : Nat :=
  ((since.filterMap (StoreStep.foundAt? id)).getLast?.map fun t => Duration.millis (t - c)).getD 0

/-- The state of a session that was put down last. -/
def lastWritten (id : String) (since : List StoreStep) : Session :=
  (since.filterMap (StoreStep.written? id)).getLast?.getD .fresh

/-- The session that there is under an id at some instant, according to a history. -/
def Remembers (limits : SessionLimits) (past : List StoreStep) (id : String) (now : Instant)
    (s : Session) : Prop :=
  ∃ c since, Issued past id c since ∧ now - c < limits.lifetime ∧
    now - c - Duration.ofMillis (lastFound id c since) < limits.idle ∧ s = lastWritten id since

/-! ## Reading a history -/

/-- What a history says about the session under an id. -/
def recorded (id : String) (past : List StoreStep) : Option HeldSession :=
  past.foldl (StoreStep.note id) none

section Reading

variable {id : String} {past since : List StoreStep} {c : Instant}

/-- Once an id was handed out, the last look-up and the last state put down count, as long as it is
    neither removed nor handed out again. -/
theorem foldl_note (held : HeldSession)
    (h : ∀ x ∈ since, x.handedOut? ≠ some id ∧ x.event.action ≠ .remove id) :
    since.foldl (StoreStep.note id) (some held) = some
      { session := (since.filterMap (StoreStep.written? id)).getLast?.getD held.session
        createdAt := held.createdAt
        lastSeen := ((since.filterMap (StoreStep.foundAt? id)).getLast?.map
          fun t => Duration.millis (t - held.createdAt)).getD held.lastSeen } := by
  induction since generalizing held with
  | nil => rfl
  | cons x since ih =>
    obtain ⟨hout, hremove⟩ := h x List.mem_cons_self
    rw [List.foldl_cons, StoreStep.note, if_neg hout, if_neg hremove, Option.map_some,
      ih _ fun y hy => h y (List.mem_cons_of_mem _ hy)]
    rw [List.filterMap_cons, List.filterMap_cons]
    cases x.written? id <;> cases x.foundAt? id <;>
      simp only [Option.map_none, Option.map_some, Option.getD_none, Option.getD_some,
        List.getLast?_cons, Option.getD_map]

/-- What is recorded of an id begins where it was handed out last. -/
theorem exists_of_foldl_note {known : Option HeldSession} {held : HeldSession}
    (h : past.foldl (StoreStep.note id) known = some held) :
    (∃ before first since, past = before ++ first :: since ∧ first.handedOut? = some id ∧
      ∀ x ∈ since, x.handedOut? ≠ some id ∧ x.event.action ≠ .remove id) ∨
    (known.isSome = true ∧
      ∀ x ∈ past, x.handedOut? ≠ some id ∧ x.event.action ≠ .remove id) := by
  induction past generalizing known with
  | nil => exact .inr ⟨by simp_all, fun x hx => by cases hx⟩
  | cons x past ih =>
    rcases ih h with ⟨before, first, since, rfl, hfirst, hsince⟩ | ⟨hknown, hpast⟩
    · exact .inl ⟨x :: before, first, since, rfl, hfirst, hsince⟩
    · by_cases hout : x.handedOut? = some id
      · exact .inl ⟨[], x, past, rfl, hout, hpast⟩
      · by_cases hremove : x.event.action = .remove id
        · simp [StoreStep.note, hout, hremove] at hknown
        · simp only [StoreStep.note, if_neg hout, if_neg hremove, Option.isSome_map] at hknown
          refine .inr ⟨hknown, fun y hy => ?_⟩
          rcases List.mem_cons.mp hy with rfl | hy
          · exact ⟨hout, hremove⟩
          · exact hpast y hy

/-- The ids that a history handed out, in order. -/
def idsOf (past : List StoreStep) : List String := past.filterMap StoreStep.handedOut?

/-- The record of an id, when no id was handed out twice. -/
theorem recorded_eq_some_iff (hids : (idsOf past).Nodup) {held : HeldSession} :
    recorded id past = some held ↔ ∃ c since, Issued past id c since ∧
      held = ⟨lastWritten id since, c, lastFound id c since⟩ := by
  constructor
  · intro h
    rcases exists_of_foldl_note h with ⟨before, first, since, rfl, hfirst, hsince⟩ | ⟨hknown, -⟩
    · have hkept : ∀ x ∈ since, x.event.action ≠ .remove id := fun x hx => (hsince x hx).2
      refine ⟨first.event.now, since, ⟨before, first, rfl, hfirst, rfl, hkept⟩, ?_⟩
      rw [recorded, List.foldl_append, List.foldl_cons, StoreStep.note, if_pos hfirst,
        foldl_note _ hsince] at h
      exact (Option.some.inj h).symm
    · cases hknown
  · rintro ⟨c, since, ⟨before, first, rfl, hfirst, rfl, hsince⟩, rfl⟩
    have hagain : ∀ x ∈ since, x.handedOut? ≠ some id := by
      intro x hx hout
      rw [idsOf, List.filterMap_append, List.filterMap_cons, hfirst, List.nodup_append] at hids
      have hmem : id ∈ since.filterMap StoreStep.handedOut? := List.mem_filterMap.mpr ⟨x, hx, hout⟩
      exact (List.nodup_cons.mp hids.2.1).1 hmem
    rw [recorded, List.foldl_append, List.foldl_cons, StoreStep.note, if_pos hfirst,
      foldl_note _ fun x hx => ⟨hagain x hx, hsince x hx⟩]
    rfl

end Reading

/-! ## All look-ups of a run -/

/-- The id that a new session would get. -/
def StoreEvent.freshId? (e : StoreEvent) : Option String :=
  match e.action with
  | .resolve _ freshId => some freshId
  | _ => none

/-- Ids that are made for new sessions are new. -/
structure FreshIds (events : List StoreEvent) : Prop where
  /-- None is made twice. -/
  distinct : (events.filterMap StoreEvent.freshId?).Nodup
  /-- None is the id that the request came with. -/
  foreign : ∀ e ∈ events, ∀ id freshId, e.action = .resolve id freshId → id ≠ some freshId

namespace SessionStore

variable {st : SessionStore} {limits : SessionLimits} {id : String} {now : Instant} {s : Session}
  {e : StoreEvent} {events : List StoreEvent}

theorem handedOut?_stepOf (st : SessionStore) (e : StoreEvent) :
    (st.stepOf e).handedOut? = none ∨ (st.stepOf e).handedOut? = e.freshId? := by
  obtain ⟨now, action⟩ := e
  cases action with
  | resolve asked freshId =>
    rcases resolve_cases st asked freshId now with ⟨key, s, -, -, -, hr⟩ | ⟨-, -, hr⟩
    · exact .inl (by simp [stepOf, answer, StoreStep.handedOut?, hr])
    · exact .inr (by simp [stepOf, answer, StoreStep.handedOut?, StoreEvent.freshId?, hr])
  | get key => exact .inl rfl
  | remove key => exact .inl rfl
  | sweep => exact .inl rfl
  | write key session => exact .inl rfl

theorem idsOf_history_sublist (st : SessionStore) (events : List StoreEvent) :
    (idsOf (st.history events)).Sublist (events.filterMap StoreEvent.freshId?) := by
  induction events generalizing st with
  | nil => exact List.Sublist.refl _
  | cons e es ih =>
    unfold idsOf history
    rw [List.filterMap_cons, List.filterMap_cons]
    rcases handedOut?_stepOf st e with h | h
    · rw [h]
      cases e.freshId? with
      | none => exact ih _
      | some freshId => exact (ih _).cons _
    · rw [h]
      cases e.freshId? with
      | none => exact ih _
      | some freshId => exact (ih _).cons_cons _

/-- A step of a history comes of an event after a part of the run. -/
theorem history_split {before after : List StoreStep} {x : StoreStep}
    (h : st.history events = before ++ x :: after) :
    ∃ es es', events = es ++ x.event :: es' ∧ before = st.history es ∧
      x = (st.after es).stepOf x.event ∧
      after = ((st.after es).answer x.event).1.history es' := by
  induction before generalizing st events with
  | nil =>
    cases events with
    | nil => cases h
    | cons e es =>
      obtain ⟨rfl, rfl⟩ := List.cons.inj h
      exact ⟨[], es, rfl, rfl, rfl, rfl⟩
  | cons y before ih =>
    cases events with
    | nil => cases h
    | cons e es =>
      obtain ⟨rfl, hrest⟩ := List.cons.inj h
      obtain ⟨es₁, es₂, rfl, rfl, hx, hafter⟩ := ih hrest
      exact ⟨e :: es₁, es₂, rfl, rfl, hx, hafter⟩

/-- What the history of a run has on record of an id is all that is known of it. -/
theorem knows_recorded (limits : SessionLimits) (hordered : events.Pairwise (·.now ≤ ·.now))
    (hnow : ∀ e ∈ events, e.now ≤ now) :
    ((empty limits.idle limits.lifetime).after events).Knows id now
      (recorded id ((empty limits.idle limits.lifetime).history events)) := by
  have hempty : (empty limits.idle limits.lifetime).Knows id 0 none := fun _ _ => rfl
  exact hempty.after (distinct_empty _ _) ⟨hordered, fun _ _ => Nat.zero_le _⟩ hnow (Nat.zero_le _)

/-- The living session under an id, read off the history. -/
theorem alive?_eq_some_iff (limits : SessionLimits) (hordered : events.Pairwise (·.now ≤ ·.now))
    (hfresh : (events.filterMap StoreEvent.freshId?).Nodup) (hnow : ∀ e ∈ events, e.now ≤ now) :
    (((empty limits.idle limits.lifetime).after events).alive? id now).map (·.session) = some s ↔
      Remembers limits ((empty limits.idle limits.lifetime).history events) id now s := by
  have hids : (idsOf ((empty limits.idle limits.lifetime).history events)).Nodup :=
    (idsOf_history_sublist _ _).nodup hfresh
  have hlimits : ((empty limits.idle limits.lifetime).after events).limits = limits :=
    limits_after _ _
  rw [knows_recorded limits hordered hnow now (Nat.le_refl _), hlimits, Option.map_eq_some_iff]
  unfold Remembers
  constructor
  · rintro ⟨held, hheld, rfl⟩
    obtain ⟨hrecorded, halive⟩ := Option.filter_eq_some_iff.mp hheld
    obtain ⟨c, since, hissued, rfl⟩ := (recorded_eq_some_iff hids).mp hrecorded
    obtain ⟨hlife, hidle⟩ := HeldSession.alive_iff.mp halive
    exact ⟨c, since, hissued, hlife, hidle, rfl⟩
  · rintro ⟨c, since, hissued, hlife, hidle, rfl⟩
    have hrecorded := (recorded_eq_some_iff hids).mpr ⟨c, since, hissued, rfl⟩
    refine ⟨_, Option.filter_eq_some_iff.mpr ⟨hrecorded, ?_⟩, rfl⟩
    exact HeldSession.alive_iff.mpr ⟨hlife, hidle⟩

/-! ### Never again -/

theorem alive?_of_found (h : (st.stepOf e).foundId? = some id) : st.alive? id e.now ≠ none := by
  obtain ⟨now, action⟩ := e
  intro hdead
  cases action with
  | resolve asked freshId =>
    cases hsought : st.sought? asked now with
    | none =>
      simp [stepOf, answer, StoreStep.foundId?, resolve_of_none hsought] at h
    | some held =>
      obtain ⟨key, rfl, hkey⟩ := Option.bind_eq_some_iff.mp hsought
      simp only [stepOf, answer, StoreStep.foundId?, resolve_of_some hkey, Bool.false_eq_true,
        if_false, Option.some.injEq] at h
      rw [h, hdead] at hkey
      cases hkey
  | get key =>
    cases hkey : st.alive? key now with
    | none => simp [stepOf, answer, StoreStep.foundId?, get_eq, hkey] at h
    | some held =>
      simp only [stepOf, answer, StoreStep.foundId?, get_eq, hkey, Option.map_some,
        Option.some.injEq] at h
      rw [h, hdead] at hkey
      cases hkey
  | remove key => cases h
  | sweep => cases h
  | write key session => cases h

/-- Nobody who is dead is found again, unless the id is handed out once more. -/
theorem not_found_of_dead (hdistinct : st.Distinct) (hdead : st.alive? id now = none)
    (hordered : OrderedFrom now events) (hout : id ∉ idsOf (st.history events)) :
    ∀ x ∈ st.history events, x.foundId? ≠ some id := by
  induction events generalizing st now with
  | nil =>
    intro x hx
    cases hx
  | cons e es ih =>
    have hdead' : st.alive? id e.now = none :=
      alive?_eq_none_of_later (hordered.2 e List.mem_cons_self) hdead
    have hfirst : (st.stepOf e).handedOut? ≠ some id := by
      intro h
      exact hout (List.mem_filterMap.mpr ⟨_, List.mem_cons_self, h⟩)
    have hrest : id ∉ idsOf ((st.answer e).1.history es) := by
      intro h
      obtain ⟨x, hx, hid⟩ := List.mem_filterMap.mp h
      exact hout (List.mem_filterMap.mpr ⟨x, List.mem_cons_of_mem _ hx, hid⟩)
    have hnext : (st.answer e).1.alive? id e.now = none := by
      have hknows := (knows_alive? st id e.now).answer hdistinct
      rw [hdead', StoreStep.note_none hfirst] at hknows
      exact hknows e.now (Nat.le_refl _)
    intro x hx
    rcases List.mem_cons.mp hx with rfl | hx
    · exact fun hfound => alive?_of_found hfound hdead'
    · exact ih (hdistinct.answer e) hnext hordered.tail hrest x hx

/-! ### Sweeps -/

/-- Stores with the same living sessions give the same replies. -/
theorem stepOf_congr {st' : SessionStore}
    (h : ∀ id, st.alive? id e.now = st'.alive? id e.now) : st.stepOf e = st'.stepOf e := by
  obtain ⟨now, action⟩ := e
  cases action with
  | resolve asked freshId =>
    have hsame : st'.sought? asked now = st.sought? asked now := by
      cases asked with
      | none => rfl
      | some key => exact (h key).symm
    cases hsought : st.sought? asked now with
    | none => simp [stepOf, answer, resolve_of_none hsought, resolve_of_none (hsame.trans hsought)]
    | some held =>
      obtain ⟨key, rfl, hkey⟩ := Option.bind_eq_some_iff.mp hsought
      simp [stepOf, answer, resolve_of_some hkey, resolve_of_some ((h key).symm.trans hkey)]
  | get key => simp [stepOf, answer, get_eq, h key]
  | remove key => rfl
  | sweep => rfl
  | write key session => rfl

/-- A run without its sweeps has the same history, but for the sweeps. -/
theorem history_unswept {st' : SessionStore} (hdistinct : st.Distinct) (hdistinct' : st'.Distinct)
    (hlimits : st'.limits = st.limits) (hsame : ∀ id, st'.alive? id now = st.alive? id now)
    (hordered : OrderedFrom now events) :
    st'.history (events.filter (·.action ≠ .sweep)) =
      (st.history events).filter (·.event.action ≠ .sweep) := by
  induction events generalizing st st' now with
  | nil => rfl
  | cons e es ih =>
    have hle : now ≤ e.now := hordered.2 e List.mem_cons_self
    have hnow : ∀ id, st'.alive? id e.now = st.alive? id e.now := by
      intro id
      rw [← alive?_later hle, ← alive?_later hle, hsame, hlimits]
    have hlimits' : ∀ e', (st'.answer e').1.limits = (st.answer e').1.limits := by
      intro e'
      rw [limits_answer, limits_answer, hlimits]
    by_cases hsweep : e.action = .sweep
    · have hstep : ∀ id, st'.alive? id e.now = (st.answer e).1.alive? id e.now := by
        intro id
        rw [hnow]
        unfold answer
        rw [hsweep]
        exact (alive?_sweep hdistinct (Nat.le_refl _)).symm
      have hfirst : (st.stepOf e).event.action = .sweep := hsweep
      rw [history, List.filter_cons_of_neg (by simp [hsweep]),
        List.filter_cons_of_neg (by simp [hfirst])]
      exact ih (hdistinct.answer e) hdistinct' (hlimits.trans limits_answer.symm) hstep
        hordered.tail
    · have hreply : st'.stepOf e = st.stepOf e := stepOf_congr hnow
      have hstep : ∀ id, (st'.answer e).1.alive? id e.now = (st.answer e).1.alive? id e.now := by
        intro id
        have hknows := (knows_alive? st id e.now).answer hdistinct e.now (Nat.le_refl _)
        have hknows' := (knows_alive? st' id e.now).answer hdistinct' e.now (Nat.le_refl _)
        rw [hknows, hknows', hnow, hreply, hlimits']
      have hfirst : (st.stepOf e).event.action ≠ .sweep := hsweep
      rw [history, List.filter_cons_of_pos (by simp [hsweep]),
        List.filter_cons_of_pos (by simp [hfirst]), history, hreply]
      exact congrArg (_ :: ·)
        (ih (hdistinct.answer e) (hdistinct'.answer e) (hlimits' e) hstep hordered.tail)

/-! ### The next step of a run -/

section NextStep

variable (limits : SessionLimits) (hordered : events.Pairwise (·.now ≤ ·.now))
  (hfresh : (events.filterMap StoreEvent.freshId?).Nodup) (hnow : ∀ e' ∈ events, e'.now ≤ e.now)

include hordered hfresh hnow

/-- A look-up replies with the session on record. -/
theorem looked_iff_remembers (hget : e.action = .get id) :
    ∃ found, (((empty limits.idle limits.lifetime).after events).stepOf e).reply = .looked found ∧
      ∀ s, found = some s ↔
        Remembers limits ((empty limits.idle limits.lifetime).history events) id e.now s := by
  obtain ⟨now, action⟩ := e
  subst hget
  refine ⟨(((empty limits.idle limits.lifetime).after events).get id now).2.1, rfl, fun s => ?_⟩
  rw [get_eq]
  exact alive?_eq_some_iff limits hordered hfresh hnow

/-- A request goes on with the session on record, or with a new one. -/
theorem resolved_remembers {asked : Option String} {freshId : String}
    (hresolve : e.action = .resolve asked freshId) :
    let past := (empty limits.idle limits.lifetime).history events
    ∃ r, (((empty limits.idle limits.lifetime).after events).stepOf e).reply = .resolved r ∧
      ((∃ key s, asked = some key ∧ Remembers limits past key e.now s ∧ r = ⟨key, s, false⟩) ∨
        (∀ key s, asked = some key → ¬Remembers limits past key e.now s) ∧
          r = ⟨freshId, .fresh, true⟩) := by
  intro past
  have hiff : ∀ key s, (((empty limits.idle limits.lifetime).after events).alive? key e.now).map
      (·.session) = some s ↔ Remembers limits past key e.now s := fun key s =>
    alive?_eq_some_iff limits hordered hfresh hnow
  obtain ⟨now, action⟩ := e
  subst hresolve
  refine ⟨_, rfl, ?_⟩
  cases hsought : ((empty limits.idle limits.lifetime).after events).sought? asked now with
  | some held =>
    obtain ⟨key, rfl, hkey⟩ := Option.bind_eq_some_iff.mp hsought
    exact .inl ⟨key, held.session, rfl, (hiff key _).mp (by simp [hkey]), resolve_of_some hkey⟩
  | none =>
    refine .inr ⟨?_, resolve_of_none hsought⟩
    rintro key s rfl hs
    have hkey : ((empty limits.idle limits.lifetime).after events).alive? key now = none := hsought
    have hliving := (hiff key s).mpr hs
    rw [hkey] at hliving
    cases hliving

/-- An id that is not on record, or that is removed now, has no living session behind it. -/
theorem dead_of_unremembered
    (hout : (((empty limits.idle limits.lifetime).after events).stepOf e).handedOut? ≠ some id)
    (hgone : (∀ s, ¬Remembers limits ((empty limits.idle limits.lifetime).history events) id
      e.now s) ∨ e.action = .remove id) :
    (((empty limits.idle limits.lifetime).after events).answer e).1.alive? id e.now = none := by
  have hdistinct : ((empty limits.idle limits.lifetime).after events).Distinct :=
    distinct_after (distinct_empty _ _) events
  have hafter := (knows_alive? _ id e.now).answer hdistinct e.now (Nat.le_refl _)
  rcases hgone with hgone | hremove
  · have hdead : ((empty limits.idle limits.lifetime).after events).alive? id e.now = none := by
      refine Option.eq_none_iff_forall_not_mem.mpr fun held hheld => hgone held.session ?_
      exact (alive?_eq_some_iff limits hordered hfresh hnow).mp (by rw [hheld]; rfl)
    rw [hafter, hdead, StoreStep.note_none hout]
    rfl
  · have hstep : ∀ st : SessionStore, (st.stepOf e).event.action = .remove id := fun _ => hremove
    rw [hafter, StoreStep.note, if_neg hout, if_pos (hstep _)]
    rfl

end NextStep

end SessionStore

/-- **What look-ups find.**  On a clock that never goes back, with ids that are never made twice, a
    look-up in a run finds a session exactly if the id was handed out, was not removed since, is
    younger than the longest lifetime, and was last found less than the idle timeout ago, in whole
    milliseconds; and it finds the state put down last.  Otherwise a request gets a new session
    under a new id.  What is not there any more is never found again, and sweeps change no reply. -/
theorem session_lookup_history (limits : SessionLimits) (events : List StoreEvent)
    (hordered : events.Pairwise (·.now ≤ ·.now)) (hfresh : FreshIds events) :
    let start := SessionStore.empty limits.idle limits.lifetime
    let past := start.history events
    (∀ before x after, past = before ++ x :: after →
      (∀ id, x.event.action = .get id → ∃ found, x.reply = .looked found ∧
        ∀ s, found = some s ↔ Remembers limits before id x.event.now s) ∧
      (∀ id freshId, x.event.action = .resolve id freshId → ∃ r, x.reply = .resolved r ∧
        ((∃ key s, id = some key ∧ Remembers limits before key x.event.now s ∧
            r = ⟨key, s, false⟩) ∨
          (∀ key s, id = some key → ¬Remembers limits before key x.event.now s) ∧
            r = ⟨freshId, .fresh, true⟩ ∧ freshId ∉ idsOf before ∧ id ≠ some freshId)) ∧
      ∀ id ∈ idsOf before,
        (∀ s, ¬Remembers limits before id x.event.now s) ∨ x.event.action = .remove id →
          ∀ y ∈ after, y.foundId? ≠ some id) ∧
    start.history (events.filter (·.action ≠ .sweep)) =
      past.filter (·.event.action ≠ .sweep) := by
  intro start past
  refine ⟨fun before x after hpast => ?_, ?_⟩
  · obtain ⟨es, es', rfl, rfl, hx, rfl⟩ := SessionStore.history_split hpast
    have hsplit := List.pairwise_append.mp hordered
    have hbefore : es.Pairwise (·.now ≤ ·.now) := hsplit.1
    have hnext := List.pairwise_cons.mp hsplit.2.1
    have hnow : ∀ e ∈ es, e.now ≤ x.event.now := fun e he =>
      hsplit.2.2 e he x.event List.mem_cons_self
    have hids : (es.filterMap StoreEvent.freshId?).Nodup :=
      ((List.sublist_append_left es _).filterMap _).nodup hfresh.distinct
    have hhanded := (SessionStore.idsOf_history_sublist start (es ++ x.event :: es')).nodup
      hfresh.distinct
    rw [show start.history (es ++ x.event :: es') = _ from hpast, idsOf, List.filterMap_append,
      List.nodup_append] at hhanded
    refine ⟨fun id hget => ?_, fun id freshId hresolve => ?_, fun id hid hgone => ?_⟩
    · rw [hx]
      exact SessionStore.looked_iff_remembers limits hbefore hids hnow hget
    · obtain ⟨r, hr, hcases⟩ :=
        SessionStore.resolved_remembers limits hbefore hids hnow hresolve
      have hreply : x.reply = .resolved r := by
        rw [hx]
        exact hr
      refine ⟨r, hreply, hcases.imp_right fun hnew => ⟨hnew.1, hnew.2, fun hmem => ?_, ?_⟩⟩
      · have hout : x.handedOut? = some freshId := by
          simp [StoreStep.handedOut?, hreply, hnew.2]
        exact hhanded.2.2 freshId hmem freshId
          (List.mem_filterMap.mpr ⟨x, List.mem_cons_self, hout⟩) rfl
      · have hmem : x.event ∈ es ++ x.event :: es' := List.mem_append_right _ List.mem_cons_self
        exact hfresh.foreign x.event hmem id freshId hresolve
    · have hlater : id ∉ idsOf (x :: (((start.after es).answer x.event).1.history es')) := fun h =>
        hhanded.2.2 id hid id h rfl
      have hout : ((start.after es).stepOf x.event).handedOut? ≠ some id := fun h =>
        hlater (List.mem_filterMap.mpr ⟨x, List.mem_cons_self, by rw [hx]; exact h⟩)
      have hdead := SessionStore.dead_of_unremembered limits hbefore hids hnow hout hgone
      refine SessionStore.not_found_of_dead
        ((SessionStore.distinct_after (SessionStore.distinct_empty _ _) es).answer x.event) hdead
        ⟨hnext.2, hnext.1⟩ fun h => hlater ?_
      obtain ⟨y, hy, hyid⟩ := List.mem_filterMap.mp h
      exact List.mem_filterMap.mpr ⟨y, List.mem_cons_of_mem _ hy, hyid⟩
  · have hfrom : SessionStore.OrderedFrom 0 events := ⟨hordered, fun _ _ => Nat.zero_le _⟩
    exact SessionStore.history_unswept (SessionStore.distinct_empty _ _)
      (SessionStore.distinct_empty _ _) rfl (fun _ => rfl) hfrom

/-- The time of a look-up counts in whole milliseconds: a session that was found 1.9 ms after it
    was handed out has an idle timeout of 2 ms behind it 1.2 ms later. -/
theorem session_lookup_history_idle :
    let limits : SessionLimits := ⟨2000000, 10000000⟩
    let events : List StoreEvent := [⟨0, .resolve none "a"⟩, ⟨1900000, .get "a"⟩,
      ⟨2500000, .sweep⟩, ⟨3100000, .get "a"⟩]
    let start := SessionStore.empty 2000000 10000000
    events.Pairwise (·.now ≤ ·.now) ∧ FreshIds events ∧
      Remembers limits (start.history (events.take 1)) "a" 1900000 .fresh ∧
      ∀ s, ¬Remembers limits (start.history (events.take 3)) "a" 3100000 s := by
  intro limits events start
  have hordered : events.Pairwise (·.now ≤ ·.now) := by decide
  have hfresh : FreshIds events := by
    refine ⟨by decide, ?_⟩
    intro e he id freshId hresolve
    simp only [events, List.mem_cons, List.not_mem_nil, or_false] at he
    rcases he with rfl | rfl | rfl | rfl <;> cases hresolve
    intro h
    cases h
  have hsteps := (session_lookup_history limits events hordered hfresh).1
  obtain ⟨found, hfound, hiff⟩ :=
    (hsteps (start.history (events.take 1)) _ _ rfl).1 "a" rfl
  obtain ⟨found', hfound', hiff'⟩ :=
    (hsteps (start.history (events.take 3)) _ _ rfl).1 "a" rfl
  cases hfound
  cases hfound'
  refine ⟨hordered, hfresh, (hiff .fresh).mp rfl, fun s hs => ?_⟩
  cases (hiff' s).mpr hs

end AccessGateway

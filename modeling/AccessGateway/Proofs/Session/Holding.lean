import AccessGateway.Session.Store

/-!
# What a store holds

A property of sessions may hold for all sessions of a store, for all but the one under an id that is
being worked on, or for the one under an id alone.  Each operation of the store is stated once for
all of them, with a property that may depend on the id.

## Results

* `live?`, `resolve_cases`, `resolve_session` — which session a request finds.
* `Each` and its lemmas — what looking up, saving, removing and sweeping preserve.
* `All`, `AllBut` — properties of all sessions, and of all but one.
* `find?_save`, `find?_remove_self`, `find?_resolve` — what is held under one id afterwards.
-/

set_option autoImplicit false

namespace AccessGateway.SessionStore

variable {st : SessionStore} {id : String} {now : Instant}

/-! ## Looking up -/

/-- The session under an id, if it is still alive. -/
def live? (st : SessionStore) (id : String) (now : Instant) : Option Session :=
  ((st.find? id).filter fun h => !h.isExpired now st.idle st.lifetime).map (·.session)

theorem get_session : (st.get id now).2.1 = st.live? id now := by
  unfold get live?
  split
  · rename_i h
    rw [h]
    rfl
  · rename_i held h
    rw [h]
    split
    · rename_i he
      simp [Option.filter, he]
    · rename_i he
      simp [Option.filter, he]

/-- The store with a fresh session put under an id. -/
def withFresh (st : SessionStore) (id : String) (now : Instant) : SessionStore :=
  { st with entries := st.entries.filter (·.1 ≠ id) ++ [(id, ⟨Session.fresh, now, 0⟩)] }

/-- A request finds the live session under its id, or else a fresh one. -/
theorem resolve_cases (st : SessionStore) (id : Option String) (freshId : String)
    (now : Instant) :
    (∃ key s, id = some key ∧ (st.get key now).2.1 = some s ∧
      (st.resolve id freshId now).1 = (st.get key now).1 ∧
      (st.resolve id freshId now).2.1 = ⟨key, s, false⟩) ∨
    ((id.bind (st.live? · now)) = none ∧
      (st.resolve id freshId now).1 =
        (id.elim st fun key => (st.get key now).1).withFresh freshId now ∧
      (st.resolve id freshId now).2.1 = ⟨freshId, .fresh, true⟩) := by
  cases id with
  | none => exact .inr ⟨rfl, rfl, rfl⟩
  | some key =>
    rw [Option.bind_some, ← get_session]
    simp only [resolve, Option.elim_some]
    rcases hg : st.get key now with ⟨st', _ | s, events⟩
    · exact .inr ⟨rfl, rfl, rfl⟩
    · exact .inl ⟨key, s, rfl, congrArg (·.2.1) hg, congrArg (·.1) hg.symm, rfl⟩

theorem resolve_session (st : SessionStore) (id : Option String) (freshId : String)
    (now : Instant) :
    (st.resolve id freshId now).2.1.session = (id.bind (st.live? · now)).getD .fresh := by
  rcases resolve_cases st id freshId now with ⟨key, s, rfl, hs, -, hr⟩ | ⟨hl, -, hr⟩
  · rw [hr, Option.bind_some, ← get_session, hs]
    rfl
  · rw [hr, hl]
    rfl

theorem find?_modify (f : HeldSession → HeldSession) :
    (st.modify id f).find? id = (st.find? id).map f := by
  unfold modify find?
  induction st.entries with
  | nil => rfl
  | cons e es ih =>
    by_cases he : e.1 = id
    · simp [he]
    · simpa [he] using ih

theorem find?_save (s : Session) :
    (st.save id s).find? id = (st.find? id).map ({ · with session := s }) := find?_modify _

theorem save_save (s t : Session) : (st.save id s).save id t = st.save id t := by
  unfold save modify
  simp only [List.map_map]
  congr 1
  refine List.map_congr_left fun e _ => ?_
  by_cases he : e.1 = id <;> simp [he]

theorem find?_remove_self : (st.remove id).1.find? id = none := by
  unfold remove
  split
  · rename_i h
    exact h
  · simp [find?]

theorem find?_get {s : Session} (h : (st.get id now).2.1 = some s) :
    ((st.get id now).1.find? id).isSome = true := by
  unfold get at h ⊢
  split at h
  · cases h
  · rename_i held hf
    split at h
    · cases h
    · rename_i he
      rw [if_neg he, find?_modify, hf]
      rfl

/-- The session that a request finds is held under the id that it gets. -/
theorem find?_resolve (st : SessionStore) (id : Option String) (freshId : String) (now : Instant) :
    ((st.resolve id freshId now).1.find? (st.resolve id freshId now).2.1.id).isSome = true := by
  rcases resolve_cases st id freshId now with ⟨key, s, -, hs, h₁, h₂⟩ | ⟨-, h₁, h₂⟩
  · rw [h₁, h₂]
    exact find?_get hs
  · rw [h₁, h₂]
    simp [withFresh, find?]

/-! ## Properties of what is held -/

/-- All sessions that are held have a property, which may depend on their ids. -/
def Each (st : SessionStore) (Q : String → Session → Prop) : Prop :=
  ∀ e ∈ st.entries, Q e.1 e.2.session

section Each

variable {Q : String → Session → Prop}

theorem Each.of_entries {st' : SessionStore} (h : st.Each Q)
    (hsub : ∀ e ∈ st'.entries, e ∈ st.entries) : st'.Each Q := fun e he => h e (hsub e he)

theorem Each.touch (h : st.Each Q) (id : String) (now : Instant) :
    (st.modify id (·.touch now)).Each Q := by
  intro e he
  obtain ⟨e', he', rfl⟩ := List.mem_map.mp he
  split
  · exact h e' he'
  · exact h e' he'

theorem Each.remove (h : st.Each Q) (id : String) : (st.remove id).1.Each Q := by
  unfold SessionStore.remove
  split
  · exact h
  · exact h.of_entries fun e he => (List.mem_filter.mp he).1

theorem Each.sweep (h : st.Each Q) (now : Instant) : (st.sweep now).1.Each Q :=
  h.of_entries fun _ he => (List.mem_filter.mp he).1

theorem Each.get (h : st.Each Q) (id : String) (now : Instant) : (st.get id now).1.Each Q := by
  unfold SessionStore.get
  split
  · exact h
  · split
    · exact h.remove id
    · exact h.touch id now

theorem Each.withFresh (h : st.Each Q) {freshId : String} (hfresh : Q freshId .fresh)
    (now : Instant) : (st.withFresh freshId now).Each Q := by
  intro e he
  rcases List.mem_append.mp he with he | he
  · exact h e (List.mem_filter.mp he).1
  · rw [List.mem_singleton.mp he]
    exact hfresh

theorem Each.resolve (h : st.Each Q) {freshId : String} (hfresh : Q freshId .fresh)
    (asked : Option String) (now : Instant) : (st.resolve asked freshId now).1.Each Q := by
  rcases resolve_cases st asked freshId now with ⟨key, s, -, -, h₁, -⟩ | ⟨-, h₁, -⟩
  · rw [h₁]
    exact h.get key now
  · rw [h₁]
    cases asked with
    | none => exact h.withFresh hfresh _
    | some key => exact (h.get key now).withFresh hfresh _

/-- Only the session that is saved has to be looked at, and what was held under its id plays no
    part. -/
theorem Each.save (h : st.Each fun key s => key ≠ id → Q key s) {s : Session} (hs : Q id s) :
    (st.save id s).Each Q := by
  intro e he
  obtain ⟨e', he', rfl⟩ := List.mem_map.mp he
  split
  · rename_i hid
    rw [hid]
    exact hs
  · rename_i hid
    exact h e' he' hid

end Each

/-- All sessions that are held have a property. -/
def All (st : SessionStore) (P : Session → Prop) : Prop := ∀ e ∈ st.entries, P e.2.session

/-- All sessions that are held have a property, but for the one under `id`. -/
def AllBut (st : SessionStore) (id : String) (P : Session → Prop) : Prop :=
  ∀ e ∈ st.entries, e.1 ≠ id → P e.2.session

variable {P : Session → Prop}

theorem all_empty (idle lifetime : Duration) : (empty idle lifetime).All P := by
  intro e he
  cases he

theorem All.allBut (h : st.All P) (id : String) : st.AllBut id P := fun e he _ => h e he

theorem All.find? (h : st.All P) {held : HeldSession} (hf : st.find? id = some held) :
    P held.session := by
  obtain ⟨e, he, rfl⟩ := Option.map_eq_some_iff.mp hf
  exact h e (List.mem_of_find?_eq_some he)

theorem All.resolve (h : st.All P) (hfresh : P .fresh) (id : Option String) (freshId : String)
    (now : Instant) : (st.resolve id freshId now).1.All P :=
  Each.resolve (Q := fun _ => P) h hfresh id now

theorem All.live? (h : st.All P) {s : Session} (hl : st.live? id now = some s) : P s := by
  obtain ⟨held, hf, rfl⟩ := Option.map_eq_some_iff.mp hl
  exact h.find? (Option.filter_eq_some_iff.mp hf).1

theorem All.resolve_session (h : st.All P) (hfresh : P .fresh) (id : Option String)
    (freshId : String) (now : Instant) : P (st.resolve id freshId now).2.1.session := by
  rw [SessionStore.resolve_session]
  cases hl : id.bind (st.live? · now) with
  | none => exact hfresh
  | some s =>
    obtain ⟨id, rfl, hl⟩ := Option.bind_eq_some_iff.mp hl
    exact h.live? hl

theorem All.sweep (h : st.All P) (now : Instant) : (st.sweep now).1.All P :=
  Each.sweep (Q := fun _ => P) h now

/-! ## Working on one session -/

theorem AllBut.save (h : st.AllBut id P) (s : Session) : (st.save id s).AllBut id P :=
  Each.save (Q := fun key s => key ≠ id → P s) (fun e he hne _ => h e he hne)
    fun hne => absurd rfl hne

/-- Saving a session that has the property makes up for the exception. -/
theorem AllBut.all_save (h : st.AllBut id P) {s : Session} (hs : P s) : (st.save id s).All P :=
  Each.save (Q := fun _ => P) h hs

/-- And so does removing it. -/
theorem AllBut.all_remove (h : st.AllBut id P) : (st.remove id).1.All P := by
  unfold remove
  split
  · rename_i hnone
    refine fun e he => h e he fun heq => ?_
    simp only [SessionStore.find?, Option.map_eq_none_iff, List.find?_eq_none] at hnone
    exact hnone e he (by simpa using heq)
  · intro e he
    obtain ⟨he, hne⟩ := List.mem_filter.mp he
    exact h e he (by simpa using hne)

end AccessGateway.SessionStore

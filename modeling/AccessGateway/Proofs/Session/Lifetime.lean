import AccessGateway.Proofs.Session.Holding

/-!
# How long a session lives

A session that a look-up finds is held under its id and has outlived neither limit.  On a clock that
never goes back such a session can die, but a dead one stays dead; so what a look-up will find
depends on the living sessions only, and sweeping the dead ones away changes nothing.

## Results

* `HeldSession.alive_of_later` — who is alive later is alive now.
* `SessionStore.alive?_get`, `alive?_resolve`, `alive?_save`, `alive?_remove`, `alive?_sweep` — the
  living session under an id after each operation.
* `SessionStore.get_eq`, `resolve_of_some`, `resolve_of_none` — look-ups, read off the living
  sessions.
-/

set_option autoImplicit false

namespace AccessGateway

/-- The limits of a session's life. -/
structure SessionLimits where
  /-- How long it lives without being looked up. -/
  idle : Duration
  /-- How long it lives at all. -/
  lifetime : Duration

/-! ## Living sessions -/

namespace HeldSession

variable {limits : SessionLimits} {now later : Instant}

/-- The session has outlived neither limit. -/
def alive (limits : SessionLimits) (now : Instant) (h : HeldSession) : Bool :=
  !h.isExpired now limits.idle limits.lifetime

theorem alive_iff {h : HeldSession} :
    h.alive limits now = true ↔
      now - h.createdAt < limits.lifetime ∧
        now - h.createdAt - Duration.ofMillis h.lastSeen < limits.idle := by
  simp [alive, isExpired]

/-- The state of a session has no part in its life. -/
theorem filter_alive_map (session : Session) (o : Option HeldSession) :
    (o.map ({ · with session })).filter (alive limits now) =
      (o.filter (alive limits now)).map ({ · with session }) := Option.filter_map

theorem alive_of_later {h : HeldSession} (hle : now ≤ later) (ha : h.alive limits later = true) :
    h.alive limits now = true := by
  rw [alive_iff] at ha ⊢
  obtain ⟨hlife, hidle⟩ := ha
  have hage : now - h.createdAt ≤ later - h.createdAt := Nat.sub_le_sub_right hle _
  exact ⟨Nat.lt_of_le_of_lt hage hlife,
    Nat.lt_of_le_of_lt (Nat.sub_le_sub_right hage _) hidle⟩

/-- Whoever is looked for later only need not be alive now. -/
theorem filter_alive_filter (hle : now ≤ later) (o : Option HeldSession) :
    (o.filter (alive limits now)).filter (alive limits later) = o.filter (alive limits later) := by
  rw [Option.filter_filter]
  congr 1
  funext h
  by_cases hl : h.alive limits later = true
  · simp [hl, alive_of_later hle hl]
  · simp [hl]

end HeldSession

namespace SessionStore

variable {st : SessionStore} {id key freshId : String} {now later : Instant}

/-! ## What is held under one id -/

theorem find?_modify_of_ne (h : key ≠ id) (f : HeldSession → HeldSession) :
    (st.modify id f).find? key = st.find? key := by
  unfold modify find?
  induction st.entries with
  | nil => rfl
  | cons e es ih =>
    by_cases hk : e.1 = key
    · have hid : e.1 ≠ id := fun hid => h (hk.symm.trans hid)
      simp [hk, h]
    · by_cases hid : e.1 = id
      · simpa [hid, Ne.symm h] using ih
      · simpa [hk, hid] using ih

theorem find?_filter_of_ne (h : key ≠ id) (entries : List (String × HeldSession)) :
    (entries.filter (·.1 ≠ id)).find? (·.1 = key) = entries.find? (·.1 = key) := by
  rw [List.find?_filter]
  congr 1
  funext e
  by_cases hk : e.1 = key
  · simp [hk, h]
  · simp [hk]

theorem find?_remove_of_ne (h : key ≠ id) : (st.remove id).1.find? key = st.find? key := by
  unfold remove
  split
  · rfl
  · exact congrArg _ (find?_filter_of_ne h _)

theorem find?_withFresh_self : (st.withFresh id now).find? id = some ⟨.fresh, now, 0⟩ := by
  have hnone : (st.entries.filter (·.1 ≠ id)).find? (·.1 = id) = none := by
    simp [List.find?_eq_none]
  unfold withFresh find?
  rw [List.find?_append, hnone]
  simp

theorem find?_withFresh_of_ne (h : key ≠ id) :
    (st.withFresh id now).find? key = st.find? key := by
  have hlast :
      ([(id, ⟨.fresh, now, 0⟩)] : List (String × HeldSession)).find? (·.1 = key) = none := by
    simp [Ne.symm h]
  unfold withFresh find?
  rw [List.find?_append, hlast, Option.or_none, find?_filter_of_ne h]

/-! ## No id twice -/

/-- No two sessions are held under one id. -/
def Distinct (st : SessionStore) : Prop := (st.entries.map (·.1)).Nodup

theorem distinct_empty (idle lifetime : Duration) : (empty idle lifetime).Distinct := List.nodup_nil

theorem Distinct.filter (h : st.Distinct) (p : String × HeldSession → Bool) :
    Distinct { st with entries := st.entries.filter p } :=
  (List.filter_sublist.map _).nodup h

theorem Distinct.modify (h : st.Distinct) (id : String) (f : HeldSession → HeldSession) :
    (st.modify id f).Distinct := by
  have hids : (st.modify id f).entries.map (·.1) = st.entries.map (·.1) := by
    unfold SessionStore.modify
    rw [List.map_map]
    refine List.map_congr_left fun e _ => ?_
    by_cases he : e.1 = id <;> simp [he]
  unfold Distinct
  rw [hids]
  exact h

theorem Distinct.remove (h : st.Distinct) (id : String) : (st.remove id).1.Distinct := by
  unfold SessionStore.remove
  split
  · exact h
  · exact h.filter _

theorem Distinct.get (h : st.Distinct) (id : String) (now : Instant) :
    (st.get id now).1.Distinct := by
  unfold SessionStore.get
  split
  · exact h
  · split
    · exact h.remove id
    · exact h.modify id _

theorem Distinct.withFresh (h : st.Distinct) (id : String) (now : Instant) :
    (st.withFresh id now).Distinct := by
  unfold Distinct SessionStore.withFresh
  rw [List.map_append, List.nodup_append]
  refine ⟨h.filter _, by simp, fun a ha b hb => ?_⟩
  obtain ⟨e, he, rfl⟩ := List.mem_map.mp ha
  have hne := (List.mem_filter.mp he).2
  rw [List.mem_singleton.mp hb]
  simpa using hne

theorem Distinct.resolve (h : st.Distinct) (id : Option String) (freshId : String)
    (now : Instant) : (st.resolve id freshId now).1.Distinct := by
  rcases resolve_cases st id freshId now with ⟨key, s, -, -, h₁, -⟩ | ⟨-, h₁, -⟩
  · rw [h₁]
    exact h.get key now
  · rw [h₁]
    cases id with
    | none => exact h.withFresh _ _
    | some key => exact (h.get key now).withFresh _ _

theorem Distinct.save (h : st.Distinct) (id : String) (s : Session) : (st.save id s).Distinct :=
  h.modify id _

theorem Distinct.sweep (h : st.Distinct) (now : Instant) : (st.sweep now).1.Distinct := h.filter _

/-! ## Limits -/

/-- The limits of the sessions of a store. -/
def limits (st : SessionStore) : SessionLimits := ⟨st.idle, st.lifetime⟩

theorem limits_remove : (st.remove id).1.limits = st.limits := by
  unfold remove
  split <;> rfl

theorem limits_get : (st.get id now).1.limits = st.limits := by
  unfold get
  split
  · rfl
  · split
    · exact limits_remove
    · rfl

theorem limits_resolve (id : Option String) (freshId : String) (now : Instant) :
    (st.resolve id freshId now).1.limits = st.limits := by
  rcases resolve_cases st id freshId now with ⟨key, s, -, -, h, -⟩ | ⟨-, h, -⟩
  · rw [h]
    exact limits_get
  · rw [h]
    cases id with
    | none => rfl
    | some key => exact limits_get

/-! ## Who is alive after an operation -/

/-- The living session under an id. -/
def alive? (st : SessionStore) (id : String) (now : Instant) : Option HeldSession :=
  (st.find? id).filter (·.alive st.limits now)

theorem live?_eq : st.live? id now = (st.alive? id now).map (·.session) := rfl

theorem alive?_later (hle : now ≤ later) :
    (st.alive? id now).filter (·.alive st.limits later) = st.alive? id later :=
  HeldSession.filter_alive_filter hle _

/-- What is held under an id, and the limits, say who is alive. -/
theorem alive?_congr {st' : SessionStore} (hlimits : st'.limits = st.limits)
    (hfind : st'.find? id = st.find? id) : st'.alive? id now = st.alive? id now := by
  unfold alive?
  rw [hlimits, hfind]

theorem alive?_save (s : Session) :
    (st.save id s).alive? key now =
      if key = id then (st.alive? key now).map ({ · with session := s })
      else st.alive? key now := by
  split
  · rename_i hkey
    subst hkey
    unfold alive?
    rw [find?_save]
    exact HeldSession.filter_alive_map s _
  · rename_i hkey
    exact alive?_congr rfl (find?_modify_of_ne hkey _)

theorem alive?_remove :
    (st.remove id).1.alive? key now = if key = id then none else st.alive? key now := by
  split
  · rename_i hkey
    unfold alive?
    rw [hkey, find?_remove_self]
    rfl
  · rename_i hkey
    exact alive?_congr limits_remove (find?_remove_of_ne hkey)

theorem alive?_withFresh :
    (st.withFresh id now).alive? key later =
      if key = id then (some ⟨.fresh, now, 0⟩ : Option HeldSession).filter (·.alive st.limits later)
      else st.alive? key later := by
  split
  · rename_i hkey
    unfold alive?
    rw [hkey, find?_withFresh_self]
    rfl
  · rename_i hkey
    exact alive?_congr rfl (find?_withFresh_of_ne hkey)

/-- A sweep keeps who is alive: a dead session that goes has no namesake behind it. -/
theorem find?_sweep (h : st.Distinct) :
    (st.sweep now).1.find? key = (st.find? key).filter (·.alive st.limits now) := by
  unfold Distinct at h
  unfold sweep find?
  dsimp only
  generalize st.entries = entries at h ⊢
  induction entries with
  | nil => rfl
  | cons e es ih =>
    rw [List.map_cons, List.nodup_cons] at h
    by_cases hkey : e.1 = key
    · have hnone : es.find? (·.1 = key) = none := by
        refine List.find?_eq_none.mpr fun e' he' hkey' => h.1 ?_
        rw [hkey, ← of_decide_eq_true hkey']
        exact List.mem_map_of_mem he'
      by_cases hdead : e.2.isExpired now st.idle st.lifetime = true
      · have hgone := ih h.2
        rw [hnone] at hgone
        simpa [hdead, hkey, Option.filter, HeldSession.alive, limits] using hgone
      · simp [hdead, hkey, Option.filter, HeldSession.alive, limits]
    · by_cases hdead : e.2.isExpired now st.idle st.lifetime = true
      · simpa [hdead, hkey] using ih h.2
      · simpa [List.filter_cons, hdead, hkey] using ih h.2

theorem alive?_sweep (h : st.Distinct) (hle : now ≤ later) :
    (st.sweep now).1.alive? key later = st.alive? key later := by
  unfold alive?
  rw [find?_sweep h]
  exact HeldSession.filter_alive_filter hle _

/-- A look-up finds the living session under the id. -/
theorem get_eq : (st.get id now).2.1 = (st.alive? id now).map (·.session) := get_session

theorem alive?_get :
    (st.get id now).1.alive? key later =
      if key = id then ((st.alive? key now).map (·.touch now)).filter (·.alive st.limits later)
      else st.alive? key later := by
  unfold get
  split
  · rename_i hnone
    split
    · rename_i hkey
      simp [alive?, hkey, hnone]
    · rfl
  · rename_i h hfind
    split
    · rename_i hdead
      dsimp only
      rw [alive?_remove]
      split
      · rename_i hkey
        have hnot : h.alive st.limits now = false := by simp [HeldSession.alive, limits, hdead]
        simp [alive?, hkey, hfind, Option.filter, hnot]
      · rfl
    · rename_i hlives
      have halive : h.alive st.limits now = true := by
        simpa [HeldSession.alive, limits] using hlives
      split
      · rename_i hkey
        unfold alive?
        rw [hkey, find?_modify, hfind]
        simp [Option.filter, halive]
        rfl
      · rename_i hkey
        exact alive?_congr rfl (find?_modify_of_ne hkey _)

/-- The living session that a request asks for. -/
def sought? (st : SessionStore) (id : Option String) (now : Instant) : Option HeldSession :=
  id.bind (st.alive? · now)

/-- What a request goes on with: the living session that was found, or a fresh one. -/
def enter (found : Option HeldSession) (now : Instant) : HeldSession :=
  (found.map (·.touch now)).getD ⟨.fresh, now, 0⟩

theorem resolve_of_some {h : HeldSession} (hs : st.alive? id now = some h) :
    (st.resolve (some id) freshId now).2.1 = ⟨id, h.session, false⟩ := by
  rcases resolve_cases st (some id) freshId now with ⟨key, s, hkey, hget, -, hr⟩ | ⟨hl, -, -⟩
  · cases hkey
    rw [get_eq, hs] at hget
    cases hget
    exact hr
  · rw [Option.bind_some, live?_eq, hs] at hl
    cases hl

theorem resolve_of_none {id : Option String} (hs : st.sought? id now = none) :
    (st.resolve id freshId now).2.1 = ⟨freshId, .fresh, true⟩ := by
  rcases resolve_cases st id freshId now with ⟨key, s, rfl, hget, -, -⟩ | ⟨-, -, hr⟩
  · have hnone : st.alive? key now = none := hs
    rw [get_eq, hnone] at hget
    cases hget
  · exact hr

theorem alive?_eq_none_of_later (hle : now ≤ later) (h : st.alive? id now = none) :
    st.alive? id later = none := by
  rw [← alive?_later hle, h]
  rfl

theorem alive?_resolve (id : Option String) (freshId : String) (hle : now ≤ later) :
    (st.resolve id freshId now).1.alive? key later =
      if key = (st.resolve id freshId now).2.1.id then
        (some (enter (st.sought? id now) now)).filter (·.alive st.limits later)
      else st.alive? key later := by
  rcases resolve_cases st id freshId now with ⟨id, s, rfl, hs, hstore, hr⟩ | ⟨hl, hstore, hr⟩
  · obtain ⟨h, hh, -⟩ := Option.map_eq_some_iff.mp (get_eq ▸ hs)
    have hsought : st.sought? (some id) now = some h := hh
    rw [hstore, hr, hsought, alive?_get]
    split
    · rename_i hkey
      rw [hkey, hh]
      rfl
    · rfl
  · have hsought : st.sought? id now = none := by
      cases id with
      | none => rfl
      | some id => simpa [live?_eq, sought?] using hl
    rw [hstore, hr, hsought, alive?_withFresh]
    split
    · cases id with
      | none => rfl
      | some id =>
        rw [Option.elim_some, limits_get]
        rfl
    · cases id with
      | none => rfl
      | some id =>
        rw [Option.elim_some, alive?_get]
        split
        · rename_i hkey
          have hdead : st.alive? id now = none := hsought
          rw [hkey, hdead, alive?_eq_none_of_later hle hdead]
          rfl
        · rfl

end SessionStore
end AccessGateway

import AccessGateway.Proofs.Session.Harvesting

/-!
# What a session keeps

Between two requests a session changes by harvests, and by noting accesses and using roles up.
`Session.Harvested` says what such a change leaves of the things that the session keeps for others:
the mark of its end, the header fields, and the cookies.

## Results

* `CookieJar.mem_storeAll` — every cookie of a jar was there before or is in a stored field.
* `Session.harvested_run`, `Session.Harvested.trans`, `Session.Harvested.of_roles` — harvests are
  such changes, and so is the use of roles before and after them.
-/

set_option autoImplicit false

namespace AccessGateway

/-! ## Jars -/

namespace CookieJar

/-- All names and values in a jar. -/
def pairs (jar : CookieJar) : List (String × String) := jar.shelves.flatMap (·.2)

variable {p : String × String} {name value path root : String}

theorem mem_replace {cookies : List (String × String)} (h : p ∈ replace name value cookies) :
    p ∈ cookies ∨ p = (name, value) := by
  rcases List.mem_append.mp h with h | h
  · exact .inl (List.mem_filter.mp h).1
  · exact .inr (List.mem_singleton.mp h)

theorem mem_shelve {shelves : List (String × List (String × String))}
    (h : p ∈ (shelve path name value shelves).flatMap (·.2)) :
    p ∈ shelves.flatMap (·.2) ∨ p = (name, value) := by
  induction shelves with
  | nil => exact .inr (by simpa [shelve] using h)
  | cons shelf shelves ih =>
    unfold shelve at h
    split at h
    · rcases List.mem_append.mp h with h | h
      · rcases mem_replace h with h | h
        · exact .inl (List.mem_append_left _ h)
        · exact .inr h
      · exact .inl (List.mem_append_right _ h)
    · rcases List.mem_append.mp h with h | h
      · exact .inl (List.mem_append_left _ h)
      · rcases ih h with h | h
        · exact .inl (List.mem_append_right _ h)
        · exact .inr h

theorem mem_store {jar : CookieJar} {field : String} (h : p ∈ (jar.store root field).1.pairs) :
    p ∈ jar.pairs ∨ ∃ c, Cookie.parse? field = some c ∧ p = (c.name, c.value) := by
  unfold store at h
  split at h
  · rename_i c hc
    rcases mem_shelve h with h | h
    · exact .inl h
    · exact .inr ⟨c, hc, h⟩
  · exact .inl h

/-- The cookies of a row of stored fields, whatever was counted before. -/
theorem mem_storeAll {jar : CookieJar} {fields : List String}
    (h : p ∈ (jar.storeAll root fields).1.pairs) :
    p ∈ jar.pairs ∨ ∃ field ∈ fields, ∃ c, Cookie.parse? field = some c ∧
      p = (c.name, c.value) := by
  unfold storeAll at h
  -- the count goes along in the fold but has no bearing on the jar
  generalize 0 = n at h
  induction fields generalizing jar n with
  | nil => exact .inl h
  | cons field fields ih =>
    have hfirst : ∀ {next stored}, jar.store root field = (next, stored) → p ∈ next.pairs →
        p ∈ jar.pairs ∨ ∃ f ∈ field :: fields, ∃ c, Cookie.parse? f = some c ∧
          p = (c.name, c.value) := by
      intro next stored hs hp
      have hp' : p ∈ (jar.store root field).1.pairs := hs ▸ hp
      rcases mem_store hp' with hp | hc
      · exact .inl hp
      · exact .inr ⟨field, List.mem_cons_self, hc⟩
    rw [List.foldl_cons] at h
    dsimp only at h
    split at h
    · rename_i hs
      rcases ih _ h with h | ⟨f, hf, hc⟩
      · exact hfirst hs h
      · exact .inr ⟨f, List.mem_cons_of_mem _ hf, hc⟩
    · rename_i hs
      rcases ih _ h with h | ⟨f, hf, hc⟩
      · exact hfirst hs h
      · exact .inr ⟨f, List.mem_cons_of_mem _ hf, hc⟩

end CookieJar

/-! ## Sessions -/

/-- The names and values in the fields of an answer that may go into a jar. -/
def Harvest.storable (values : List HeaderValue) : List (String × String) :=
  (values.filterMap regularOf?).filterMap fun text =>
    (Cookie.parse? text).map fun c => (c.name, c.value)

/-- What harvesting `values` makes of what a session keeps for others. -/
structure Session.Harvested (s t : Session) (values : List HeaderValue) : Prop where
  /-- A session that goes on ends exactly if a command says so. -/
  destroyed : s.destroyed = false → t.destroyed = Harvest.endsSession values
  /-- A destroyed session stays so. -/
  stays : s.destroyed = true → t.destroyed = true
  /-- Header fields are kept or lost together. -/
  headers : t.headers = s.headers ∨ t.headers = .empty
  /-- They are kept unless a command ends the session. -/
  kept : Harvest.endsSession values = false → t.headers = s.headers
  /-- Every cookie was there before or comes from a field. -/
  cookies : ∀ p ∈ t.cookies.pairs, p ∈ s.cookies.pairs ∨ p ∈ Harvest.storable values

namespace Session

variable {s t u : Session} {values more : List HeaderValue}

/-- Roles and accesses play no part. -/
theorem Harvested.of_roles {roles : List Role} {lastAccess : List (String × Instant)}
    (h : t = { s with roles, lastAccess }) : s.Harvested t [] := by
  subst h
  exact ⟨fun h => h, fun h => h, .inl rfl, fun _ => rfl, fun _ hp => .inl hp⟩

theorem Harvested.refl (s : Session) : s.Harvested s [] := .of_roles rfl

theorem Harvested.trans (h : s.Harvested t values) (h' : t.Harvested u more) :
    s.Harvested u (values ++ more) := by
  refine ⟨fun hs => ?_, fun hs => h'.stays (h.stays hs), ?_, fun hvalues => ?_, fun p hp => ?_⟩
  · rw [Harvest.endsSession_append]
    cases ht : t.destroyed with
    | true =>
      rw [h'.stays ht, ← h.destroyed hs, ht]
      rfl
    | false =>
      rw [h'.destroyed ht, ← h.destroyed hs, ht]
      rfl
  · rcases h'.headers with hu | hu
    · rw [hu]
      exact h.headers
    · exact .inr hu
  · rw [Harvest.endsSession_append, Bool.or_eq_false_iff] at hvalues
    rw [h'.kept hvalues.2, h.kept hvalues.1]
  · have happ : Harvest.storable (values ++ more) =
        Harvest.storable values ++ Harvest.storable more := by
      simp [Harvest.storable]
    rw [happ, List.mem_append]
    rcases h'.cookies p hp with hp | hp
    · rcases h.cookies p hp with hp | hp
      · exact .inl hp
      · exact .inr (.inl hp)
    · exact .inr (.inr hp)

theorem harvested_run (s : Session) (root : String) (values : List HeaderValue) (now : Instant) :
    s.Harvested (Harvest.run s root values now).1 values := by
  refine ⟨fun hs => Harvest.run_destroyed s root values hs, fun hs => ?_,
    Harvest.run_headers s root values, fun hvalues => ?_, fun p hp => ?_⟩
  · cases he : Harvest.endsSession values with
    | true => rw [Harvest.run_ended s root values he, destroy]
    | false =>
      rw [Harvest.run_kept s root values he]
      exact hs
  · rw [Harvest.run_kept s root values hvalues]
  · cases he : Harvest.endsSession values with
    | true =>
      rw [Harvest.run_ended s root values he] at hp
      cases hp
    | false =>
      rw [Harvest.run_kept s root values he] at hp
      rcases CookieJar.mem_storeAll hp with hp | ⟨field, hf, c, hc, rfl⟩
      · exact .inl hp
      · exact .inr (List.mem_filterMap.mpr ⟨field, hf, by rw [hc]; rfl⟩)

end Session
end AccessGateway

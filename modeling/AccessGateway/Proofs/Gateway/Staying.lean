import AccessGateway.Proofs.Gateway.Logout
import AccessGateway.Proofs.Gateway.Visits

/-!
# A session from one request to the next

Between two requests of a session other requests are served, and the session may be visited as well.
It goes on as long as its id is handed out to nobody else and no visit ends it, and all that time it
keeps its header fields, unless an assertion is posted to it.

## Results

* `SessionStore.AllAt` and its lemmas — a property of the session under one id, operation by
  operation.
* `Server.Throughout`, `Server.Continues` — what holds of every event of a row.
* `Server.exchange_mapping`, `Server.logsOut_iff` — the exchange of a request that a mapping serves,
  and when it ends the session.
* `Server.step_allAt` — one event.
-/

set_option autoImplicit false

namespace AccessGateway

/-! ## The session under one id -/

namespace SessionStore

variable {st : SessionStore} {id key freshId : String} {asked : Option String} {now : Instant}
  {P : Session → Prop}

/-- The session that is held under an id, if there is one, has a property. -/
def AllAt (st : SessionStore) (id : String) (P : Session → Prop) : Prop :=
  ∀ e ∈ st.entries, e.1 = id → P e.2.session

theorem AllAt.remove (h : st.AllAt id P) (key : String) : (st.remove key).1.AllAt id P :=
  Each.remove (Q := fun k s => k = id → P s) h key

theorem AllAt.sweep (h : st.AllAt id P) (now : Instant) : (st.sweep now).1.AllAt id P :=
  Each.sweep (Q := fun k s => k = id → P s) h now

/-- A request that gets another id, or the session itself, leaves the session alone. -/
theorem AllAt.resolve (h : st.AllAt id P) (hne : freshId ≠ id) (asked : Option String)
    (now : Instant) : (st.resolve asked freshId now).1.AllAt id P :=
  Each.resolve (Q := fun k s => k = id → P s) h (fun hid => absurd hid hne) asked now

theorem AllAt.save (h : st.AllAt id P) {s : Session} (hs : key = id → P s) :
    (st.save key s).AllAt id P :=
  Each.save (Q := fun k s => k = id → P s) (fun e he _ => h e he) hs

/-- What is put down under an id is all that is held under it. -/
theorem allAt_save {s : Session} (hs : P s) : (st.save id s).AllAt id P :=
  Each.save (Q := fun k s => k = id → P s) (fun _ _ hne hid => absurd hid hne) fun _ => hs

/-- A request that is given the id, and not as a fresh one, finds the session. -/
theorem AllAt.found (h : st.AllAt id P) (hne : freshId ≠ id)
    (hid : (st.resolve asked freshId now).2.1.id = id) :
    P (st.resolve asked freshId now).2.1.session := by
  rcases resolve_cases st asked freshId now with ⟨key, s, -, hs, -, hr⟩ | ⟨-, -, hr⟩
  · rw [hr] at hid ⊢
    have hkey : key = id := hid
    rw [get_session] at hs
    obtain ⟨held, hheld, rfl⟩ := Option.map_eq_some_iff.mp hs
    obtain ⟨e, he, rfl⟩ := Option.map_eq_some_iff.mp (Option.filter_eq_some_iff.mp hheld).1
    have hname : e.1 = key := by simpa using List.find?_some he
    exact h e (List.mem_of_find?_eq_some he) (hname.trans hkey)
  · rw [hr] at hid
    exact absurd hid hne

end SessionStore

/-! ## One exchange -/

namespace Gateway

variable {g : Gateway} {w : Surroundings} {m : Mapping} {r : Request} {id : String}
  {P : Session → Prop}

theorem handle_allAt (h : g.sessions.AllAt id P) (hne : w.freshSession ≠ id)
    (hself : (g.found w r.headers).id = id → P (g.found w r.headers).session →
      P (g.finished w m r)) :
    (g.handle w m r).gateway.sessions.AllAt id P := by
  have hopened : (g.opened w r).AllAt id P := h.resolve hne _ _
  have hkept : ((g.opened w r).save (g.found w r.headers).id (g.finished w m r)).AllAt id P :=
    hopened.save fun hid => hself hid (h.found hne hid)
  rw [handle_sessions]
  dsimp only
  split
  · exact hkept.remove _
  · exact hkept

end Gateway

/-! ## Rows of events -/

namespace Server

variable {s : Server} {w : Surroundings} {r : Request} {m : Mapping} {id : String}
  {P : Session → Prop} {events : List ServerEvent}

/-- Every event of a row has a property, together with the server that it happens to. -/
def Throughout (Q : Server → ServerEvent → Prop) (s : Server) : List ServerEvent → Prop
  | [] => True
  | e :: events => Q s e ∧ (s.step e).Throughout Q events

/-- The session under an id goes on: the id is not handed out, and if the request is one of this
    session, no command in the cookies that are harvested ends it. -/
def Continues (id : String) (s : Server) : ServerEvent → Prop
  | .request w r =>
    w.freshSession ≠ id ∧ ((s.gateway.found w r.headers).id = id → ¬s.LogsOut w r)
  | .sweep _ => True

/-- The id of a request plays no part in how it is served. -/
theorem service?_assign (s : Server) (fresh : String) (r : Request) :
    s.service? (RequestId.assign fresh r) = s.service? r := by
  have hcheck : (RequestId.assign fresh r).check = r.check := by
    have hencoding : (RequestId.assign fresh r).headers.values .transferEncoding =
        r.headers.values .transferEncoding := RequestId.assign_values fresh r (by decide)
    unfold Request.check Headers.first?
    rw [RequestId.assign_version, hencoding]
  unfold service?
  rw [hcheck, RequestId.assign_method, RequestId.assign_target, RequestId.assign_body]

/-- The exchange of a request that a mapping serves. -/
theorem exchange_mapping (h : s.service? (RequestId.assign w.freshRequest r) = some (.mapping m)) :
    ∃ metrics, s.exchange w r =
      { s.gateway.handle w m (RequestId.assign w.freshRequest r) with metrics } := by
  obtain ⟨hroute, hcheck, rfl⟩ := service?_eq_mapping.mp h
  unfold exchange answer
  dsimp only
  generalize RequestId.assign w.freshRequest r = q at hroute hcheck
  rcases hroute with hroute | hroute
  · rw [hroute]
    exact Gateway.dispatch_of_check hcheck
  · rw [hroute]
    exact Gateway.dispatch_of_check hcheck

/-- A request that gets no session is answered at once with a status. -/
theorem exchange_unserved (h : s.service? (RequestId.assign w.freshRequest r) = none) :
    ∃ status metrics, s.exchange w r =
      ⟨s.gateway, some (.ofStatus status), [], [], [], metrics⟩ := by
  have hdispatch : ∀ q, q.check ≠ .ok () → ∃ status metrics,
      s.gateway.dispatch w q = ⟨s.gateway, some (.ofStatus status), [], [], [], metrics⟩ := by
    intro q hq
    cases hcheck : q.check with
    | ok u => exact absurd hcheck hq
    | error e =>
      obtain ⟨metrics, hx⟩ := Gateway.dispatch_of_error (g := s.gateway) (w := w) hcheck
      exact ⟨e.status, metrics, hx⟩
  unfold service? at h
  unfold exchange answer
  dsimp only
  generalize RequestId.assign w.freshRequest r = q at h
  cases hroute : s.router.route q.method q.target.path with
  | dispatcher =>
    rw [hroute] at h
    exact hdispatch q fun hcheck => by simp [hcheck] at h
  | besideBinding =>
    rw [hroute] at h
    exact hdispatch q fun hcheck => by simp [hcheck] at h
  | binding root =>
    rw [hroute] at h
    have hform : PostBinding.form? q.body = none := by simpa using h
    dsimp only
    unfold PostBinding.handle
    rw [hform]
    exact ⟨.badRequest, [], rfl⟩
  | nowhere => exact ⟨.notFound, [], rfl⟩

/-- When a request that a mapping serves ends its session. -/
theorem logsOut_iff (h : s.service? (RequestId.assign w.freshRequest r) = some (.mapping m)) :
    s.LogsOut w r ↔
      Harvest.endsSession
        (m.harvested w.identity
          (s.gateway.handle w m (RequestId.assign w.freshRequest r)).calls ++
        w.backendCookies
          (s.gateway.handle w m (RequestId.assign w.freshRequest r)).sent) = true := by
  have hm := service?_mapping h
  rw [RequestId.assign_target] at hm
  obtain ⟨metrics, hx⟩ := exchange_mapping h
  unfold LogsOut providerCookies
  rw [hx, ← hm]

/-- A session that is not ended keeps its header fields. -/
theorem finished_headers
    (h : s.service? (RequestId.assign w.freshRequest r) = some (.mapping m))
    (hquiet : ¬s.LogsOut w r) :
    (s.gateway.finished w m (RequestId.assign w.freshRequest r)).headers =
      (s.gateway.found w r.headers).session.headers := by
  rw [logsOut_iff h, Bool.not_eq_true] at hquiet
  have hkept := (Gateway.finished_harvested (g := s.gateway) (w := w) (m := m)
    (r := RequestId.assign w.freshRequest r)).kept hquiet
  rw [hkept, ← Gateway.found_session, Gateway.found_assign]

/-- **One event**: what the session under an id has, it has afterwards, if the visits to it keep
    it. -/
theorem step_allAt {e : ServerEvent} (h : s.gateway.sessions.AllAt id P)
    (hcontinues : s.Continues id e)
    (hvisit : ∀ w r, e = .request w r → (s.gateway.found w r.headers).id = id →
      P (s.gateway.found w r.headers).session →
      (∀ m, s.service? (RequestId.assign w.freshRequest r) = some (.mapping m) →
        P (s.gateway.finished w m (RequestId.assign w.freshRequest r))) ∧
      ∀ posted, s.service? (RequestId.assign w.freshRequest r) = some (.binding posted) →
        P (PostBinding.keep (s.gateway.found w r.headers).session posted)) :
    (s.step e).gateway.sessions.AllAt id P := by
  cases e with
  | sweep now => exact h.sweep now
  | request w r =>
    obtain ⟨hne, -⟩ := hcontinues
    have hself := hvisit w r rfl
    have hassign := Gateway.found_assign s.gateway w w.freshRequest r
    rw [step_service]
    split
    · rename_i m hm
      refine Gateway.handle_allAt h hne fun hid hfound => ?_
      rw [hassign] at hid hfound
      exact (hself hid hfound).1 m hm
    · rename_i posted hposted
      refine (h.resolve hne _ _).save fun hid => ?_
      exact (hself hid (h.found hne hid)).2 posted hposted
    · exact h

end Server
end AccessGateway

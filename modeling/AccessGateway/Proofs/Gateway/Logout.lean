import AccessGateway.Proofs.Gateway.Closing

/-!
# Logging out

A provider or a backend ends a session with a command in its cookies.  The session is destroyed when
the cookies are harvested, but it leaves the store, and the browser is told, only when the exchange
closes.  An exchange that fails between the two, or is never answered, leaves the destroyed session
in the store.

## Results

* `Server.removed_iff` — when a session that was ended leaves the store.
* `Server.noneDestroyed_iff` — when a request keeps destroyed sessions out of the store.
* `logout_complete_iff` — both, after every run.
-/

set_option autoImplicit false

namespace AccessGateway

/-! ## One exchange -/

namespace Gateway

variable {g : Gateway} {w : Surroundings} {m : Mapping} {r : Request}

/-- The session that a request finds is held under its id, with what became of it. -/
theorem find?_finished :
    ∃ held, ((g.opened w r).save (g.found w r.headers).id (g.finished w m r)).find?
      (g.found w r.headers).id = some held ∧ held.session = g.finished w m r := by
  have hheld : ((g.opened w r).find? (g.found w r.headers).id).isSome = true :=
    SessionStore.find?_resolve _ _ _ _
  obtain ⟨held, hfind⟩ := Option.isSome_iff_exists.mp hheld
  refine ⟨{ held with session := g.finished w m r }, ?_, rfl⟩
  rw [SessionStore.find?_save, hfind]
  rfl

theorem find?_handle :
    (g.handle w m r).gateway.sessions.find? (g.found w r.headers).id = none ↔
      g.ends w m r = true := by
  rw [handle_sessions]
  dsimp only
  split
  · rename_i hclosed
    simp [hclosed, SessionStore.find?_remove_self]
  · rename_i hclosed
    obtain ⟨held, hfind, -⟩ := find?_finished (g := g) (w := w) (m := m) (r := r)
    simp [hclosed, hfind]

/-- The sessions that are held are not destroyed. -/
def NoneDestroyed (g : Gateway) : Prop := g.sessions.All fun s => s.destroyed = false

/-- A request keeps destroyed sessions out of the store, unless its own is destroyed and not
    removed. -/
theorem noneDestroyed_handle (h : g.NoneDestroyed) :
    (g.handle w m r).gateway.NoneDestroyed ↔
      (Harvest.endsSession (m.harvested w.identity (g.handle w m r).calls ++
        w.backendCookies (g.handle w m r).sent) = true → g.ends w m r = true) := by
  have hopened : (g.opened w r).All fun s => s.destroyed = false := h.resolve rfl _ _ _
  have hfound : (g.sessionOf w r.headers).destroyed = false := by
    rw [← found_session]
    exact h.resolve_session rfl _ _ _
  have hends := (finished_harvested (g := g) (w := w) (m := m) (r := r)).destroyed hfound
  -- all other sessions stay as they were, so that only the session of the request counts
  rw [← hends]
  unfold NoneDestroyed
  rw [handle_sessions]
  dsimp only
  split
  · rename_i hclosed
    simp only [hclosed, implies_true, iff_true]
    exact ((hopened.allBut _).save _).all_remove
  · rename_i hclosed
    simp only [hclosed, Bool.false_eq_true, imp_false, Bool.not_eq_true]
    constructor
    · intro hall
      obtain ⟨held, hfind, hsession⟩ := find?_finished (g := g) (w := w) (m := m) (r := r)
      rw [← hsession]
      exact hall.find? hfind
    · intro hfinished
      exact (hopened.allBut _).all_save hfinished

/-- A post to the SAML endpoint destroys no session. -/
theorem NoneDestroyed.binding (h : g.NoneDestroyed) {root : String} :
    (PostBinding.handle g w root r).gateway.NoneDestroyed := by
  refine PostBinding.handle_all rfl (fun t posted ht => ?_) h
  unfold PostBinding.keep
  split <;> exact ht

end Gateway

namespace Server

variable {s : Server} {w : Surroundings} {r : Request}

/-- The cookies of providers that are harvested in the course of a request. -/
def providerCookies (s : Server) (w : Surroundings) (r : Request) : List HeaderValue :=
  (s.gateway.table.resolve r.target.path).harvested w.identity (s.exchange w r).calls

/-- A command in the cookies that are harvested ends the session of the request. -/
def LogsOut (s : Server) (w : Surroundings) (r : Request) : Prop :=
  Harvest.endsSession
    (s.providerCookies w r ++ w.backendCookies (s.exchange w r).sent) = true

/-- The exchange closes knowing of the end of the session: it is answered, and a provider ended the
    session, or a backend whose answer could be relayed. -/
def FollowsUp (s : Server) (w : Surroundings) (r : Request) : Prop :=
  (s.exchange w r).response.isSome = true ∧
  (Harvest.endsSession (s.providerCookies w r) = true ∨
    ∃ answer ∈ w.answers (s.exchange w r).sent,
      Harvest.endsSession (answer.headers.values .setCookie) = true ∧
      ∃ response, Gateway.relayOf w r answer = some (.ok response))

/-- Only a request that a mapping handles can end its session. -/
theorem LogsOut.handled (h : s.LogsOut w r) :
    ∃ metrics, s.exchange w r =
      { s.gateway.handle w (s.gateway.table.resolve r.target.path)
          (RequestId.assign w.freshRequest r) with metrics } := by
  rcases exchange_cases s w r with hx | ⟨root, hx⟩ | ⟨status, metrics, hx⟩
  · exact hx
  · unfold LogsOut providerCookies at h
    rw [hx, PostBinding.handle_calls, PostBinding.handle_sent] at h
    cases h
  · unfold LogsOut providerCookies at h
    rw [hx] at h
    cases h

theorem ends_iff_followsUp (h : s.LogsOut w r) :
    s.gateway.ends w (s.gateway.table.resolve r.target.path)
      (RequestId.assign w.freshRequest r) = true ↔ s.FollowsUp w r := by
  obtain ⟨metrics, hx⟩ := h.handled
  unfold FollowsUp providerCookies
  rw [Gateway.ends_iff, hx]
  simp only [Gateway.relayOf_assign]

/-- A session that was ended leaves the store exactly if the exchange closes knowing of it. -/
theorem removed_iff (h : s.LogsOut w r) :
    (s.answer w r).1.gateway.sessions.find? (s.gateway.found w r.headers).id = none ↔
      s.FollowsUp w r := by
  have hgateway : (s.answer w r).1.gateway = (s.exchange w r).gateway := step_request
  obtain ⟨metrics, hx⟩ := h.handled
  rw [← ends_iff_followsUp h, ← Gateway.find?_handle, hgateway, hx, Gateway.found_assign]

/-- Then the browser gets the cookie that takes the session back, if its text can stand in a header
    field. -/
theorem expired_mem (h : s.LogsOut w r) (hf : s.FollowsUp w r) {value : HeaderValue}
    (hv : HeaderValue.ofText? (BrowserCookie.expired s.gateway.cookieName) = some value) :
    value ∈ (s.answer w r).2.2.headers.values .setCookie := by
  have hclosed := (ends_iff_followsUp h).mpr hf
  obtain ⟨response, hr⟩ := Option.isSome_iff_exists.mp hf.1
  rw [answer_setCookies, hr, Option.getD_some]
  obtain ⟨metrics, hx⟩ := h.handled
  rw [hx] at hr
  dsimp only at hr
  rw [Gateway.handle_setCookies hr, hclosed]
  unfold Gateway.due
  rw [if_pos rfl, hv]
  exact List.mem_append_right _ (List.mem_append_right _ List.mem_cons_self)

/-- What a request must do for the store to stay free of destroyed sessions. -/
theorem noneDestroyed_iff (h : s.gateway.NoneDestroyed) :
    (s.answer w r).1.gateway.NoneDestroyed ↔ (s.LogsOut w r → s.FollowsUp w r) := by
  have hgateway : (s.answer w r).1.gateway = (s.exchange w r).gateway := step_request
  rw [hgateway]
  rcases exchange_cases s w r with ⟨metrics, hx⟩ | ⟨root, hx⟩ | ⟨status, metrics, hx⟩
  · have hiff := Gateway.noneDestroyed_handle (w := w)
      (m := s.gateway.table.resolve r.target.path) (r := RequestId.assign w.freshRequest r) h
    have hlogsOut : s.LogsOut w r ↔
        Harvest.endsSession
          ((s.gateway.table.resolve r.target.path).harvested w.identity
            (s.gateway.handle w (s.gateway.table.resolve r.target.path)
              (RequestId.assign w.freshRequest r)).calls ++
          w.backendCookies (s.gateway.handle w (s.gateway.table.resolve r.target.path)
            (RequestId.assign w.freshRequest r)).sent) = true := by
      unfold LogsOut providerCookies
      rw [hx]
    rw [hx]
    refine hiff.trans ⟨fun hclosed hl => ?_, fun hf hl => ?_⟩
    · exact (ends_iff_followsUp hl).mp (hclosed (hlogsOut.mp hl))
    · exact (ends_iff_followsUp (hlogsOut.mpr hl)).mpr (hf (hlogsOut.mpr hl))
  · have hquiet : ¬s.LogsOut w r := by
      unfold LogsOut providerCookies
      rw [hx, PostBinding.handle_calls, PostBinding.handle_sent]
      exact Bool.false_ne_true
    refine ⟨fun _ hl => absurd hl hquiet, fun _ => ?_⟩
    rw [hx]
    exact h.binding
  · have hquiet : ¬s.LogsOut w r := by
      unfold LogsOut providerCookies
      rw [hx]
      exact Bool.false_ne_true
    refine ⟨fun _ hl => absurd hl hquiet, fun _ => ?_⟩
    rw [hx]
    exact h

/-! ## Whole runs -/

theorem run_noneDestroyed (h : s.gateway.NoneDestroyed) {events : List ServerEvent}
    (hall : ∀ before w r, before ++ [.request w r] <+: events →
      (s.run before).LogsOut w r → (s.run before).FollowsUp w r) :
    (s.run events).gateway.NoneDestroyed := by
  induction events generalizing s with
  | nil => exact h
  | cons e es ih =>
    -- the event comes first in the run, so that nothing but the start is before it
    have hstep : (s.step e).gateway.NoneDestroyed := by
      cases e with
      | request w r => exact (noneDestroyed_iff h).mpr (hall [] w r ⟨es, rfl⟩)
      | sweep now => exact SessionStore.All.sweep h now
    refine ih hstep fun before w r hprefix => ?_
    exact hall (e :: before) w r (List.cons_prefix_cons.mpr ⟨rfl, hprefix⟩)

/-- Between the events of a run no destroyed session is held exactly if every request of the run
    that logs out is followed up. -/
theorem run_noneDestroyed_iff (h : s.gateway.NoneDestroyed) (events : List ServerEvent) :
    (∀ before, before <+: events → (s.run before).gateway.NoneDestroyed) ↔
      ∀ before w r, before ++ [.request w r] <+: events →
        (s.run before).LogsOut w r → (s.run before).FollowsUp w r := by
  constructor
  · intro hall before w r hprefix
    have hbefore := hall before ((List.prefix_append _ _).trans hprefix)
    have hafter := hall _ hprefix
    rw [run_append] at hafter
    exact (noneDestroyed_iff hbefore).mp hafter
  · intro hall before hbefore
    exact run_noneDestroyed h fun part w r hpart => hall part w r (hpart.trans hbefore)

end Server

/-- **When a logout is complete.**  After every run, and for every request whose harvested cookies
    end its session: the session leaves the store exactly if the exchange closes knowing of that
    end, and then the browser gets the cookie that takes the session back, if its text can stand in
    a header field.  Destroyed sessions stay out of the store between the events of a run exactly if
    all requests that log out are followed up so. -/
theorem logout_complete_iff (router : Router) (settings : Settings) (localPort : Nat)
    (events : List ServerEvent) :
    let start := Server.new router settings localPort
    let s := start.run events
    let expired := HeaderValue.ofText? (BrowserCookie.expired settings.session.cookieName)
    (∀ w r, s.LogsOut w r →
      let removed := (s.answer w r).1.gateway.sessions.find? (s.gateway.found w r.headers).id = none
      let told := ∃ value ∈ (s.answer w r).2.2.headers.values .setCookie, expired = some value
      (removed ↔ s.FollowsUp w r) ∧
      (removed ∧ told ↔ s.FollowsUp w r ∧ expired.isSome = true)) ∧
    ((∀ before, before <+: events → (start.run before).gateway.NoneDestroyed) ↔
      ∀ before w r, before ++ [.request w r] <+: events →
        (start.run before).LogsOut w r → (start.run before).FollowsUp w r) := by
  intro start s expired
  have hname : s.gateway.cookieName = settings.session.cookieName := Server.run_cookieName _ events
  refine ⟨fun w r h => ⟨Server.removed_iff h, ?_⟩, ?_⟩
  · rw [Server.removed_iff h]
    constructor
    · rintro ⟨hf, value, -, hv⟩
      exact ⟨hf, Option.isSome_iff_exists.mpr ⟨value, hv⟩⟩
    · rintro ⟨hf, hsome⟩
      obtain ⟨value, hv⟩ := Option.isSome_iff_exists.mp hsome
      refine ⟨hf, value, Server.expired_mem h hf ?_, hv⟩
      rw [hname]
      exact hv
  · have hstart : start.gateway.NoneDestroyed := SessionStore.all_empty _ _
    exact Server.run_noneDestroyed_iff hstart events

/-! ## A logout that is lost

A backend ends the session in an answer that comes in chunks, and the browser speaks HTTP/1.0, so
that the answer cannot be relayed. -/

namespace LostLogout

/-- One mapping, open to everyone. -/
def settings : Settings :=
  { mappings := [{ name := "app", contextRoot := "/", backend := { host := "backend" } }] }

/-- The answer that ends the session. -/
def answer : Response :=
  { status := .ok, reason := none, body := .empty, streamed := true
    headers := ⟨[(.transferEncoding, ⟨Bytes.ofText "chunked"⟩),
      (.setCookie, ⟨Bytes.ofText "AL_CONTROL=SESSION%3Dend"⟩)]⟩ }

def surroundings : Surroundings :=
  { arrival := 0, decided := 0, answered := 0, date := 0
    freshSession := "s", freshRequest := "q"
    identity := ⟨fun _ => .outOfTime, fun _ => some false⟩
    backend := fun _ => .value answer }

def request : Request := ⟨.get, ⟨none, "", "/"⟩, .http10, .empty, .empty⟩

end LostLogout

/-- A session that a backend ended need not leave the store, as its exchange may fail before it
    closes. -/
theorem logout_incomplete :
    ¬∀ (router : Router) (settings : Settings) (localPort : Nat) (events : List ServerEvent)
      (w : Surroundings) (r : Request),
      let s := (Server.new router settings localPort).run events
      s.LogsOut w r →
      (s.answer w r).1.gateway.sessions.find? (s.gateway.found w r.headers).id = none ∧
      ∃ value ∈ (s.answer w r).2.2.headers.values .setCookie,
        HeaderValue.ofText? (BrowserCookie.expired settings.session.cookieName) = some value := by
  intro h
  have hlost := h ⟨none⟩ LostLogout.settings 8080 [] LostLogout.surroundings LostLogout.request
  have hends : ((Server.new ⟨none⟩ LostLogout.settings 8080).run []).LogsOut LostLogout.surroundings
      LostLogout.request := by
    unfold Server.LogsOut
    decide +kernel
  have hheld : ¬Option.isNone
      ((((Server.new ⟨none⟩ LostLogout.settings 8080).run []).answer LostLogout.surroundings
        LostLogout.request).1.gateway.sessions.find? "s") = true := by
    decide +kernel
  have hid : (((Server.new ⟨none⟩ LostLogout.settings 8080).run []).gateway.found
      LostLogout.surroundings LostLogout.request.headers).id = "s" := by
    decide +kernel
  have hremoved := (hlost hends).1
  rw [hid] at hremoved
  exact hheld (Option.isNone_iff_eq_none.mpr hremoved)

end AccessGateway

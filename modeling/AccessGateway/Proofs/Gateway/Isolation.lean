import AccessGateway.Proofs.Gateway.Gate
import AccessGateway.Proofs.Gateway.Visits

/-!
# Sessions do not influence each other

Two runs may differ in all requests that get other sessions.  As long as a session has the same
visits in both, look-ups find it in the same state, and the next request that it gets is decided
alike and goes on to the backend in the same form.

## Results

* `SessionStore.resolve_same` — a request that comes with an id gets the same session from stores
  in which the same is alive under the id.
* `Server.alive?_run` — who is alive under an id after a run.
* `Server.verdict_alike`, `sent_alike`, `visitsOf_alike` — requests that find the same session on
  two servers.
* `sessions_isolated` — the whole of it, for two runs from the start.
-/

set_option autoImplicit false

namespace AccessGateway

/-! ## The session of the next request -/

namespace SessionStore

variable {st st' : SessionStore} {id freshId : String} {asked : Option String} {now : Instant}

/-- A request that gets an id in two stores, or asks for it, gets the same of both. -/
theorem resolve_same (hsame : st.alive? id now = st'.alive? id now)
    (hid : asked = some id ∨ (st.resolve asked freshId now).2.1.id = id ∧
      (st'.resolve asked freshId now).2.1.id = id) :
    (st.resolve asked freshId now).2.1 = (st'.resolve asked freshId now).2.1 := by
  have hsought : st.sought? asked now = st'.sought? asked now := by
    by_cases hasked : asked = some id
    · rw [hasked]
      exact hsame
    · obtain ⟨hst, hst'⟩ := hid.resolve_left hasked
      rw [(knows_alive? st id now).sought? hst, (knows_alive? st' id now).sought? hst',
        if_neg hasked, if_neg hasked]
  cases hs : st.sought? asked now with
  | none => rw [resolve_of_none hs, resolve_of_none (hsought.symm.trans hs)]
  | some held =>
    obtain ⟨key, rfl, hkey⟩ := Option.bind_eq_some_iff.mp hs
    rw [resolve_of_some hkey, resolve_of_some (hsought.symm.trans hs)]

end SessionStore

namespace Gateway

variable {g g' : Gateway} {w : Surroundings} {m : Mapping} {r : Request}

/-- A mapping decides on the session that a request found, and on nothing else that is held. -/
theorem verdict_congr (h : g.found w r.headers = g'.found w r.headers) :
    g.verdict w m r = g'.verdict w m r := by
  unfold verdict
  rw [h]

end Gateway

namespace Server

variable {s s' : Server} {w : Surroundings} {r : Request} {id : String} {events : List ServerEvent}
  {now : Instant}

theorem step_router (s : Server) (e : ServerEvent) : (s.step e).router = s.router := by
  cases e with
  | request w r =>
    unfold step answer
    dsimp only
  | sweep now => rfl

theorem run_router (s : Server) (events : List ServerEvent) : (s.run events).router = s.router := by
  unfold run
  induction events generalizing s with
  | nil => rfl
  | cons e events ih =>
    exact (ih _).trans (step_router s e)

/-- Who is alive under an id after a run from the start follows from the visits. -/
theorem alive?_run (router : Router) (settings : Settings) (localPort : Nat) (id : String)
    (hordered : events.Pairwise (·.time ≤ ·.time)) (hnow : ∀ e ∈ events, e.time ≤ now) :
    let start := new router settings localPort
    (start.run events).gateway.sessions.alive? id now =
      (Visit.leftAll start.gateway.sessions.limits start.gateway.cookieName id
        (start.visits id events) none).filter (·.alive start.gateway.sessions.limits now) := by
  intro start
  have hdistinct : start.gateway.sessions.Distinct := SessionStore.distinct_empty _ _
  have hstart : start.gateway.sessions.Knows id 0 none := fun _ _ => rfl
  have hknows := knows_run hdistinct hstart (fun _ _ => Nat.zero_le _) hordered hnow
    (Nat.zero_le now)
  rw [hknows now (Nat.le_refl _), run_limits]

/-! ## Two servers -/

/-- What is sent is the request of the mapping, with what the session and its authorization put into
    it. -/
theorem request_of_mem_sent {out : Request} (h : out ∈ (s.exchange w r).sent) :
    Outbound.request (s.gateway.table.resolve r.target.path).backend
      (RequestId.assign w.freshRequest r)
      (s.gateway.injected w (s.gateway.table.resolve r.target.path)
        (RequestId.assign w.freshRequest r)) s.gateway.proxy s.gateway.localPort = .ok out :=
  (Gateway.mem_handle_sent.mp (handled_of_mem_sent h)).2.2

section Alike

variable (hrouter : s'.router = s.router) (hsetup : s'.gateway.setup = s.gateway.setup)
  (hfound : s.gateway.found w r.headers = s'.gateway.found w r.headers)

include hfound

theorem verdict_alike (m : Mapping) :
    s.gateway.verdict w m (RequestId.assign w.freshRequest r) =
      s'.gateway.verdict w m (RequestId.assign w.freshRequest r) := by
  refine Gateway.verdict_congr ?_
  rw [Gateway.found_assign, Gateway.found_assign, hfound]

include hsetup

theorem sent_alike {out out' : Request} (hout : out ∈ (s.exchange w r).sent)
    (hout' : out' ∈ (s'.exchange w r).sent) : out = out' := by
  have htable : s'.gateway.table = s.gateway.table := congrArg (·.1) hsetup
  have hproxy : s'.gateway.proxy = s.gateway.proxy := congrArg (·.2.1) hsetup
  have hport : s'.gateway.localPort = s.gateway.localPort := congrArg (·.2.2.2) hsetup
  have hrequest := request_of_mem_sent hout
  have hrequest' := request_of_mem_sent hout'
  unfold Gateway.injected at hrequest hrequest'
  rw [htable, hproxy, hport, ← verdict_alike hfound, hrequest] at hrequest'
  cases hrequest'
  rfl

include hrouter

/-- If breaker and backend answer alike as well, so is the visit. -/
theorem visitsOf_alike
    (houtcome :
      s.gateway.outcome w (s.gateway.table.resolve r.target.path)
        (RequestId.assign w.freshRequest r) =
      s'.gateway.outcome w (s.gateway.table.resolve r.target.path)
        (RequestId.assign w.freshRequest r)) :
    s.visitsOf id (.request w r) = s'.visitsOf id (.request w r) := by
  have htable : s'.gateway.table = s.gateway.table := congrArg (·.1) hsetup
  have hservice : ∀ q, s'.service? q = s.service? q := by
    intro q
    unfold service?
    rw [hrouter, htable]
  unfold visitsOf
  dsimp only
  rw [hservice, hfound]
  split
  · split
    · rename_i m hm
      have hresolve := service?_mapping hm
      rw [RequestId.assign_target] at hresolve
      subst hresolve
      unfold Gateway.visit
      dsimp only
      rw [houtcome, verdict_alike hfound]
    · rfl
    · rfl
  · rfl

end Alike
end Server

/-- **Sessions do not influence each other.**  Take two runs from the start, on a clock that never
    goes back, in which the session under an id has the same visits; they may differ in all other
    requests.  Then every look-up of the id finds the same in both.  The next request that comes
    with the id, or that gets it in both, gets the same session, the same verdict, and is the same
    request at the backend; and its visit is the same, if breaker and backend answer alike. -/
theorem sessions_isolated (router : Router) (settings : Settings) (localPort : Nat) (id : String)
    (events events' : List ServerEvent) (hordered : events.Pairwise (·.time ≤ ·.time))
    (hordered' : events'.Pairwise (·.time ≤ ·.time))
    (hvisits : (Server.new router settings localPort).visits id events =
      (Server.new router settings localPort).visits id events') :
    let s := (Server.new router settings localPort).run events
    let s' := (Server.new router settings localPort).run events'
    (∀ now, (∀ e ∈ events ++ events', e.time ≤ now) →
      (s.gateway.sessions.get id now).2.1 = (s'.gateway.sessions.get id now).2.1) ∧
    ∀ w r, (∀ e ∈ events ++ events', e.time ≤ w.arrival) →
      (r.headers.requestCookie? settings.session.cookieName = some id ∨
        (s.gateway.found w r.headers).id = id ∧ (s'.gateway.found w r.headers).id = id) →
      let q := RequestId.assign w.freshRequest r
      let m := (MappingTable.ofSettings settings.mappings).resolve r.target.path
      s.gateway.found w r.headers = s'.gateway.found w r.headers ∧
      s.gateway.verdict w m q = s'.gateway.verdict w m q ∧
      (∀ out ∈ (s.exchange w r).sent, ∀ out' ∈ (s'.exchange w r).sent, out = out') ∧
      (s.gateway.outcome w m q = s'.gateway.outcome w m q →
        s.visitsOf id (.request w r) = s'.visitsOf id (.request w r)) := by
  intro s s'
  have halive : ∀ now, (∀ e ∈ events ++ events', e.time ≤ now) →
      s.gateway.sessions.alive? id now = s'.gateway.sessions.alive? id now := by
    intro now hnow
    have hevents : ∀ e ∈ events, e.time ≤ now := fun e he => hnow e (List.mem_append_left _ he)
    have hevents' : ∀ e ∈ events', e.time ≤ now := fun e he => hnow e (List.mem_append_right _ he)
    have hs := Server.alive?_run router settings localPort id hordered hevents
    have hs' := Server.alive?_run router settings localPort id hordered' hevents'
    exact hs.trans (hvisits ▸ hs'.symm)
  have hrouter : s'.router = s.router :=
    (Server.run_router _ _).trans (Server.run_router _ _).symm
  have hsetup : s'.gateway.setup = s.gateway.setup :=
    (Server.run_setup _ _).trans (Server.run_setup _ _).symm
  have htable : s.gateway.table = .ofSettings settings.mappings := Server.run_table _ events
  have hname : s.gateway.cookieName = settings.session.cookieName := Server.run_cookieName _ events
  have hname' : s'.gateway.cookieName = settings.session.cookieName :=
    Server.run_cookieName _ events'
  constructor
  · intro now hnow
    rw [SessionStore.get_eq, SessionStore.get_eq, halive now hnow]
  · intro w r hnow hid q m
    have hfound : s.gateway.found w r.headers = s'.gateway.found w r.headers := by
      unfold Gateway.found Gateway.sessionFor at hid ⊢
      rw [hname, hname'] at hid ⊢
      exact SessionStore.resolve_same (halive w.arrival hnow) hid
    refine ⟨hfound, Server.verdict_alike hfound m, fun out hout out' hout' => ?_, ?_⟩
    · exact Server.sent_alike hsetup hfound hout hout'
    · intro houtcome
      refine Server.visitsOf_alike hrouter hsetup hfound ?_
      rw [htable]
      exact houtcome

/-! ## A stranger -/

namespace Stranger

/-- One mapping, open to everyone. -/
def settings : Settings :=
  { mappings := [{ name := "app", contextRoot := "/", backend := { host := "backend" } }] }

/-- A browser without a session comes, gets the one under `fresh`, and the backend sets a cookie. -/
def visitor (fresh cookie : String) : ServerEvent :=
  .request
    { arrival := 0, decided := 0, answered := 0, date := 0
      freshSession := fresh, freshRequest := "q"
      identity := ⟨fun _ => .outOfTime, fun _ => some false⟩
      backend := fun _ => .value
        { status := .ok, reason := none, body := .empty, streamed := false
          headers := ⟨[(.setCookie, ⟨Bytes.ofText cookie⟩)]⟩ } }
    ⟨.get, ⟨none, "", "/"⟩, .http11, .empty, .empty⟩

/-- A browser is alone. -/
def alone : List ServerEvent := [visitor "a" "theme=dark"]

/-- A stranger who is granted a role comes before it. -/
def behind : List ServerEvent := visitor "b" "AL_CONTROL=ADD_CREDENTIALS%3Dadmin" :: alone

/-- A server after some events. -/
def server (events : List ServerEvent) : Server := (Server.new ⟨none⟩ settings 8080).run events

end Stranger

/-- The stranger gets the role, and the browser has the same session as if it were alone. -/
theorem sessions_isolated_stranger :
    Stranger.alone.Pairwise (·.time ≤ ·.time) ∧ Stranger.behind.Pairwise (·.time ≤ ·.time) ∧
      (Server.new ⟨none⟩ Stranger.settings 8080).visits "a" Stranger.alone =
        (Server.new ⟨none⟩ Stranger.settings 8080).visits "a" Stranger.behind ∧
      ((Stranger.server Stranger.alone).gateway.sessions.get "a" 1).2.1 =
        ((Stranger.server Stranger.behind).gateway.sessions.get "a" 1).2.1 ∧
      ((Stranger.server Stranger.behind).gateway.sessions.get "b" 1).2.1.map (·.roleNames) =
        some ["admin"] := by
  have halone : Stranger.alone.Pairwise (·.time ≤ ·.time) := by decide
  have hbehind : Stranger.behind.Pairwise (·.time ≤ ·.time) := by decide
  have hvisits : (Server.new ⟨none⟩ Stranger.settings 8080).visits "a" Stranger.alone =
      (Server.new ⟨none⟩ Stranger.settings 8080).visits "a" Stranger.behind := by decide +kernel
  have htimes : ∀ e ∈ Stranger.alone ++ Stranger.behind, e.time ≤ 1 := by decide
  have hisolated := sessions_isolated ⟨none⟩ Stranger.settings 8080 "a" Stranger.alone
    Stranger.behind halone hbehind hvisits
  have hgranted : ((Stranger.server Stranger.behind).gateway.sessions.get "b" 1).2.1.map
      (·.roleNames) = some ["admin"] := by
    decide +kernel
  exact ⟨halone, hbehind, hvisits, hisolated.1 1 htimes, hgranted⟩

end AccessGateway

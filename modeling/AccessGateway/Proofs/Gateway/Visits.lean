import AccessGateway.Proofs.Access.Answering
import AccessGateway.Proofs.Gateway.Closing
import AccessGateway.Proofs.Session.History

/-!
# Visits

A request that gets a session visits it.  What a visit makes of the session is read off the request,
the instants at which things happen, and the answers that providers, breakers and the backend gave;
nothing else that the gateway holds has a part in it.

## Results

* `Visit.left` — what a visit leaves of a session.
* `Gateway.close_eq` — the session at the end of an exchange, from the answers that were given.
* `Server.knows_step` — one event: the session under an id changes by the visits to it only.
* `Server.knows_run` — a whole run.
-/

set_option autoImplicit false

namespace AccessGateway

/-! ## What a visit makes of a session -/

/-- What becomes of a request that gets a session. -/
inductive Service where
  /-- The mapping decides on it. -/
  | mapping (m : Mapping)
  /-- It is a post to the SAML endpoint. -/
  | binding (posted : Option String)
deriving DecidableEq, Repr

/-- A request that gets a session, with its instants and the answers that were given to it. -/
structure Visit where
  arrival : Instant
  answered : Instant
  date : Timestamp
  /-- Whether the time is over while the body of the backend's answer is read. -/
  stalls : Bool
  request : Request
  service : Service
  testimony : Testimony
  /-- What came of the call to the backend, if its breaker was asked for one. -/
  outcome : Option (Except (CallError String) Response)
deriving DecidableEq

namespace Visit

variable (limits : SessionLimits) (cookieName id : String)

/-- The session that a visit goes on with: the one that there is, if the request comes with its id
    and it is alive, or else a fresh one. -/
def entered (v : Visit) (held : Option HeldSession) : HeldSession :=
  SessionStore.enter
    (if v.request.headers.requestCookie? cookieName = some id then
      held.filter (·.alive limits v.arrival)
    else none) v.arrival

/-- What the mapping decides, with the answers that were given. -/
def decided (v : Visit) (m : Mapping) (s : Session) : Decision × Session × RequestState :=
  (m.authorize v.testimony.asPeers ⟨v.request.headers, v.request.target.path, v.arrival⟩ s
    (.ofSession s)).outcome

/-- Whether an answer of the backend goes on to the browser; nothing if the time is over before that
    is known. -/
def relays? (v : Visit) (answer : Response) : Option Bool :=
  let answer := { answer with headers := answer.headers.erase .setCookie }
  if v.stalls && answer.isGathered v.request.version v.request.method then none
  else some (answer.relay v.request.version v.request.method v.date).isOk

/-- The session after the decision and the backend's part, and whether it is removed then. -/
def close (v : Visit) (m : Mapping) : Decision × Session × RequestState → Session × Bool
  | (.allowed, s, st) =>
    match v.outcome with
    | some (.ok answer) =>
      let (s, harvest) :=
        Harvest.run s m.contextRoot (answer.headers.values .setCookie) v.answered
      match v.relays? answer with
      | some relayed => (s, st.loggedOut || relayed && harvest.loggedOut)
      | none => (s, false)
    | some (.error .abandoned) => (s, false)
    | _ => (s, st.loggedOut)
  | (.outOfTime, s, _) => (s, false)
  | (_, s, st) => (s, st.loggedOut)

/-- What a visit leaves of a session. -/
def left (v : Visit) (held : Option HeldSession) : Option HeldSession :=
  let h := v.entered limits cookieName id held
  match v.service with
  | .binding posted => some { h with session := PostBinding.keep h.session posted }
  | .mapping m =>
    match v.close m (v.decided m h.session) with
    | (_, true) => none
    | (session, false) => some { h with session }

/-- What a row of visits leaves of a session. -/
def leftAll (visits : List Visit) (held : Option HeldSession) : Option HeldSession :=
  visits.foldl (fun held v => v.left limits cookieName id held) held

end Visit

/-! ## One exchange -/

namespace Gateway

variable {g : Gateway} {w : Surroundings} {m : Mapping} {r : Request} {id : String}
  {known : Option HeldSession}

/-- What the breaker and the backend answer to a request that may pass; nothing if it has no
    address. -/
def called (g : Gateway) (w : Surroundings) (m : Mapping) (r : Request) (injection : Injection) :
    Option (Except (CallError String) Response) :=
  (Outbound.request m.backend r injection g.proxy g.localPort).toOption.map fun outbound =>
    (g.breakers.call m.name w.decided w.answered (w.backend outbound)
      (·.status.isServerError)).2.1

/-- What they answer to a request, if it may pass. -/
def outcome (g : Gateway) (w : Surroundings) (m : Mapping) (r : Request) :
    Option (Except (CallError String) Response) :=
  let v := g.verdict w m r
  if v.decision = .allowed then
    g.called w m r (v.state.injection v.session r.target.path)
  else none

/-- The visit that a request makes under a mapping. -/
def visit (g : Gateway) (w : Surroundings) (m : Mapping) (r : Request) : Visit :=
  let q := RequestId.assign w.freshRequest r
  ⟨w.arrival, w.answered, w.date, w.stalls, r, .mapping m, .given w.identity (g.verdict w m q),
    g.outcome w m q⟩

/-- The visit that a post to the SAML endpoint makes. -/
def posting (w : Surroundings) (r : Request) (posted : Option String) : Visit :=
  ⟨w.arrival, w.answered, w.date, w.stalls, r, .binding posted, ⟨none, none⟩, none⟩

theorem relays?_visit (answer : Response) :
    (g.visit w m r).relays? answer =
      (relayOf w (RequestId.assign w.freshRequest r) answer).map (·.isOk) := by
  rw [relayOf_assign]
  unfold relayOf relay? Visit.relays? visit
  dsimp only
  split <;> rfl

/-- How an exchange closes whose request does not go to the backend. -/
theorem close_of_not_allowed (h : (g.verdict w m r).decision ≠ .allowed) :
    g.finished w m r = (g.verdict w m r).session ∧
      g.ends w m r =
        ((g.verdict w m r).decision ≠ .outOfTime && (g.verdict w m r).state.loggedOut) := by
  have hsent : (g.served w m r).2.2.1 = [] := by rw [served_sent, if_neg h]
  refine ⟨?_, ?_⟩
  · unfold finished
    rw [hsent]
    rfl
  · unfold ends served
    dsimp only
    cases hd : (g.verdict w m r).decision with
    | allowed => exact absurd hd h
    | denied => simp [BackendResult.answer?]
    | failed e => simp [BackendResult.answer?]
    | outOfTime => simp [BackendResult.answer?]

/-- The answers of the backend, and whether there is an answer and the backend ended the session,
    by what came of the call. -/
theorem forward_close (g : Gateway) (w : Surroundings) (m : Mapping) (id : String) (s : Session)
    (r : Request) (injection : Injection) :
    (w.answers (g.forward w m id s r injection).2.2.1,
        (g.forward w m id s r injection).2.1.answer?.map (·.2)) =
      match g.called w m r injection with
      | some (.ok answer) =>
        ([answer], (relayOf w r answer).map fun relayed => relayed.isOk &&
          (Harvest.run s m.contextRoot (answer.headers.values .setCookie)
            w.answered).2.loggedOut)
      | some (.error .abandoned) => ([], none)
      | _ => ([], some false) := by
  unfold forward called
  cases Outbound.request m.backend r injection g.proxy g.localPort with
  | error e => rfl
  | ok outbound =>
    dsimp only [Except.toOption, Option.map_some]
    rcases hcall : g.breakers.call m.name w.decided w.answered (w.backend outbound)
      (·.status.isServerError) with ⟨breakers, result, events⟩
    cases ha : (g.breakers.acquire m.name w.decided).2.1 with
    | none =>
      rw [Breakers.call_refused ha] at hcall
      cases hcall
      rfl
    | some p =>
      have hresult := Breakers.call_admitted ha w.answered (w.backend outbound)
        (·.status.isServerError)
      rw [hcall] at hresult
      dsimp only at hresult
      subst hresult
      cases hb : w.backend outbound with
      | value answer =>
        have hanswers : w.answers [outbound] = [answer] := by simp [Surroundings.answers, hb]
        dsimp only [CallOutcome.result]
        rw [hanswers, deliver_eq]
        dsimp only
        rcases relayOf w r answer with _ | e | response
        · rfl
        · rfl
        · rfl
      | failure reason =>
        have hanswers : w.answers [outbound] = [] := by simp [Surroundings.answers, hb]
        exact congrArg (·, some false) hanswers
      | noAnswer =>
        have hanswers : w.answers [outbound] = [] := by simp [Surroundings.answers, hb]
        exact congrArg (·, some false) hanswers
      | abandoned =>
        have hanswers : w.answers [outbound] = [] := by simp [Surroundings.answers, hb]
        exact congrArg (·, none) hanswers

theorem ends_eq :
    g.ends w m r =
      match (g.served w m r).2.1.answer?.map (·.2) with
      | some loggedOut => (g.verdict w m r).state.loggedOut || loggedOut
      | none => false := by
  unfold ends
  cases (g.served w m r).2.1.answer? <;> rfl

theorem served_of_allowed (h : (g.verdict w m r).decision = .allowed) :
    g.served w m r = (g.entered w m r).forward w m (g.found w r.headers).id
      (g.verdict w m r).session r
      ((g.verdict w m r).state.injection (g.verdict w m r).session r.target.path) := by
  unfold served
  dsimp only
  rw [h]

/-- How an exchange closes whose request may pass. -/
theorem close_of_allowed (h : (g.verdict w m r).decision = .allowed) :
    (g.finished w m r, g.ends w m r) =
      match g.outcome w m r with
      | some (.ok answer) =>
        let t := Harvest.run (g.verdict w m r).session m.contextRoot
          (answer.headers.values .setCookie) w.answered
        match (relayOf w r answer).map (·.isOk) with
        | some relayed => (t.1, (g.verdict w m r).state.loggedOut || relayed && t.2.loggedOut)
        | none => (t.1, false)
      | some (.error .abandoned) => ((g.verdict w m r).session, false)
      | _ => ((g.verdict w m r).session, (g.verdict w m r).state.loggedOut) := by
  have hcalled : g.outcome w m r = (g.entered w m r).called w m r
      ((g.verdict w m r).state.injection (g.verdict w m r).session r.target.path) := by
    unfold outcome
    rw [if_pos h]
    rfl
  have hclose := forward_close (g.entered w m r) w m (g.found w r.headers).id
    (g.verdict w m r).session r
    ((g.verdict w m r).state.injection (g.verdict w m r).session r.target.path)
  rw [← served_of_allowed h, ← hcalled] at hclose
  rw [ends_eq]
  unfold finished
  generalize g.outcome w m r = outcome at hclose
  rcases outcome with _ | (_ | _ | _ | _) | answer
  case some.ok =>
    obtain ⟨hanswers, hanswer⟩ := Prod.mk.inj hclose
    rw [hanswers, hanswer]
    dsimp only
    rcases relayOf w r answer with _ | e | response
    · rfl
    · rfl
    · rfl
  all_goals
    obtain ⟨hanswers, hanswer⟩ := Prod.mk.inj hclose
    rw [hanswers, hanswer]
    simp

/-- The session at the end of an exchange follows from the verdict and the answers. -/
theorem close_eq :
    (g.visit w m r).close m
        (g.verdict w m (RequestId.assign w.freshRequest r)).outcome =
      (g.finished w m (RequestId.assign w.freshRequest r),
        g.ends w m (RequestId.assign w.freshRequest r)) := by
  have hrelays : ∀ answer, (g.visit w m r).relays? answer = _ := relays?_visit
  have houtcome : (g.visit w m r).outcome = g.outcome w m (RequestId.assign w.freshRequest r) := rfl
  have hanswered : (g.visit w m r).answered = w.answered := rfl
  unfold Visit.close
  simp only [hrelays, houtcome, hanswered]
  generalize RequestId.assign w.freshRequest r = q
  unfold Authorization.outcome
  by_cases h : (g.verdict w m q).decision = .allowed
  · rw [h, close_of_allowed h]
  · obtain ⟨hfinished, hends⟩ := close_of_not_allowed h
    rw [hfinished, hends]
    cases hd : (g.verdict w m q).decision with
    | allowed => exact absurd hd h
    | denied => simp
    | failed e => simp
    | outOfTime => simp

/-- The visit decides what the exchange decides. -/
theorem decided_eq :
    (g.visit w m r).decided m (g.found w r.headers).session =
      (g.verdict w m (RequestId.assign w.freshRequest r)).outcome := by
  have hcookie : HeaderName.cookie ≠ .requestId := by decide
  have hauthorization : HeaderName.authorization ≠ .requestId := by decide
  have halike : AccessRequest.Alike
      ⟨(RequestId.assign w.freshRequest r).headers,
        (RequestId.assign w.freshRequest r).target.path, w.arrival⟩
      ⟨r.headers, r.target.path, w.arrival⟩ :=
    ⟨rfl, (RequestId.assign_values _ r hcookie).symm,
      (RequestId.assign_values _ r hauthorization).symm⟩
  unfold Visit.decided visit
  dsimp only
  rw [Mapping.authorize_alike halike]
  unfold verdict
  rw [found_assign, Mapping.authorize_given]

/-- An exchange leaves its session as the visit leaves it. -/
theorem knows_handle_self :
    (g.handle w m r).gateway.sessions.Knows (g.found w r.headers).id w.arrival
      (if g.ends w m r = true then none
      else some
        { SessionStore.enter
            (g.sessions.sought? (r.headers.requestCookie? g.cookieName) w.arrival) w.arrival with
          session := g.finished w m r }) := by
  rw [handle_sessions]
  dsimp only
  split
  · exact SessionStore.knows_removed _ _ _
  · exact SessionStore.knows_kept rfl _

/-- An exchange leaves all other sessions alone. -/
theorem knows_handle_other (h : g.sessions.Knows id w.arrival known)
    (hid : (g.found w r.headers).id ≠ id) :
    (g.handle w m r).gateway.sessions.Knows id w.arrival known := by
  have hkept : ((g.opened w r).save (g.found w r.headers).id (g.finished w m r)).Knows id
      w.arrival known := h.kept hid _
  rw [handle_sessions]
  dsimp only
  split
  · exact hkept.removed hid
  · exact hkept

/-- A visit goes on with the session that its request was given. -/
theorem entered_eq (h : g.sessions.Knows id w.arrival known) (hid : (g.found w r.headers).id = id)
    {v : Visit} (hrequest : v.request = r) (harrival : v.arrival = w.arrival) :
    v.entered g.sessions.limits g.cookieName id known =
      SessionStore.enter
        (g.sessions.sought? (r.headers.requestCookie? g.cookieName) w.arrival) w.arrival := by
  unfold Visit.entered
  rw [hrequest, harrival, h.sought? hid]

theorem left_visit (h : g.sessions.Knows id w.arrival known)
    (hid : (g.found w r.headers).id = id) :
    (g.visit w m r).left g.sessions.limits g.cookieName id known =
      if g.ends w m (RequestId.assign w.freshRequest r) = true then none
      else some
        { SessionStore.enter
            (g.sessions.sought? (r.headers.requestCookie? g.cookieName) w.arrival) w.arrival with
          session := g.finished w m (RequestId.assign w.freshRequest r) } := by
  have hsession : (SessionStore.enter
      (g.sessions.sought? (r.headers.requestCookie? g.cookieName) w.arrival) w.arrival).session =
        (g.found w r.headers).session := SessionStore.resolve_session_eq.symm
  have hservice : (g.visit w m r).service = .mapping m := rfl
  unfold Visit.left
  rw [hservice, entered_eq h hid rfl rfl]
  dsimp only
  rw [hsession, decided_eq, close_eq]
  cases g.ends w m (RequestId.assign w.freshRequest r) with
  | true => rfl
  | false => rfl

/-- A post to the SAML endpoint leaves its session as the visit leaves it. -/
theorem knows_posted {posted : Option String} (h : g.sessions.Knows id w.arrival known)
    (hid : (g.found w r.headers).id = id) :
    ((g.sessionFor w r.headers).1.save (g.found w r.headers).id
      (PostBinding.keep (g.found w r.headers).session posted)).sessions.Knows id w.arrival
        ((posting w r posted).left g.sessions.limits g.cookieName id known) := by
  have hsession : (g.found w r.headers).session = (SessionStore.enter
      (g.sessions.sought? (r.headers.requestCookie? g.cookieName) w.arrival) w.arrival).session :=
    SessionStore.resolve_session_eq
  have hservice : (posting w r posted).service = .binding posted := rfl
  unfold Visit.left
  rw [hservice, entered_eq h hid rfl rfl, hid, hsession]
  exact SessionStore.knows_kept hid _

theorem handle_limits : (g.handle w m r).gateway.sessions.limits = g.sessions.limits := by
  have hopened : (g.opened w r).limits = g.sessions.limits := SessionStore.limits_resolve _ _ _
  rw [handle_sessions]
  dsimp only
  split
  · exact SessionStore.limits_remove.trans hopened
  · exact hopened

theorem handle_distinct (h : g.sessions.Distinct) :
    (g.handle w m r).gateway.sessions.Distinct := by
  have hkept : ((g.opened w r).save (g.found w r.headers).id (g.finished w m r)).Distinct :=
    (h.resolve _ _ _).save _ _
  rw [handle_sessions]
  dsimp only
  split
  · exact hkept.remove _
  · exact hkept

end Gateway

/-! ## Runs -/

/-- When an event happens. -/
def ServerEvent.time : ServerEvent → Instant
  | .request w _ => w.arrival
  | .sweep now => now

namespace Server

/-- How a request is served that gets a session; nothing if it gets none. -/
def service? (s : Server) (r : Request) : Option Service :=
  match s.router.route r.method r.target.path with
  | .dispatcher | .besideBinding =>
    match r.check with
    | .ok () => some (.mapping (s.gateway.table.resolve r.target.path))
    | .error _ => none
  | .binding _ =>
    (PostBinding.form? r.body).map fun form => .binding (PostBinding.posted? r.target form)
  | .nowhere => none

/-- The visits to the session under an id that an event makes: one or none. -/
def visitsOf (id : String) (s : Server) : ServerEvent → List Visit
  | .request w r =>
    if (s.gateway.found w r.headers).id = id then
      match s.service? (RequestId.assign w.freshRequest r) with
      | some (.mapping m) => [s.gateway.visit w m r]
      | some (.binding posted) => [Gateway.posting w r posted]
      | none => []
    else []
  | .sweep _ => []

/-- All visits to the session under an id in a row of events. -/
def visits (id : String) (s : Server) : List ServerEvent → List Visit
  | [] => []
  | e :: events => s.visitsOf id e ++ (s.step e).visits id events

variable {s : Server} {w : Surroundings} {r : Request} {id : String} {known : Option HeldSession}
  {now later : Instant} {e : ServerEvent} {events : List ServerEvent}

/-- When a mapping serves a request. -/
theorem service?_eq_mapping {m : Mapping} : s.service? r = some (.mapping m) ↔
    (s.router.route r.method r.target.path = .dispatcher ∨
      s.router.route r.method r.target.path = .besideBinding) ∧
    r.check = .ok () ∧ m = s.gateway.table.resolve r.target.path := by
  unfold service?
  cases s.router.route r.method r.target.path with
  | dispatcher => cases r.check <;> simp [eq_comm]
  | besideBinding => cases r.check <;> simp [eq_comm]
  | binding root => simp
  | nowhere => simp

theorem service?_mapping {m : Mapping} (h : s.service? r = some (.mapping m)) :
    m = s.gateway.table.resolve r.target.path := (service?_eq_mapping.mp h).2.2

/-- The gateway after a request, by how it is served. -/
theorem step_service :
    (s.step (.request w r)).gateway =
      match s.service? (RequestId.assign w.freshRequest r) with
      | some (.mapping m) => (s.gateway.handle w m (RequestId.assign w.freshRequest r)).gateway
      | some (.binding posted) =>
        (s.gateway.sessionFor w r.headers).1.save (s.gateway.found w r.headers).id
          (PostBinding.keep (s.gateway.found w r.headers).session posted)
      | none => s.gateway := by
  have hdispatch : (s.gateway.dispatch w (RequestId.assign w.freshRequest r)).gateway =
      (s.gateway.uncounted w (RequestId.assign w.freshRequest r)).gateway := by
    obtain ⟨metrics, hx⟩ := Gateway.dispatch_eq s.gateway w (RequestId.assign w.freshRequest r)
    rw [hx]
  rw [step_request, ← Gateway.sessionFor_assign s.gateway w w.freshRequest r,
    ← Gateway.found_assign s.gateway w w.freshRequest r]
  unfold exchange answer service?
  dsimp only
  generalize RequestId.assign w.freshRequest r = q at hdispatch
  unfold Gateway.uncounted at hdispatch
  cases s.router.route q.method q.target.path with
  | dispatcher =>
    dsimp only
    rw [hdispatch]
    cases q.check <;> rfl
  | besideBinding =>
    dsimp only
    rw [hdispatch]
    cases q.check <;> rfl
  | binding root =>
    dsimp only
    unfold PostBinding.handle
    cases PostBinding.form? q.body <;> rfl
  | nowhere => rfl

theorem step_limits : (s.step e).gateway.sessions.limits = s.gateway.sessions.limits := by
  cases e with
  | sweep now => rfl
  | request w r =>
    rw [step_service]
    split
    · exact Gateway.handle_limits
    · exact SessionStore.limits_resolve _ _ _
    · rfl

theorem run_limits (s : Server) (events : List ServerEvent) :
    (s.run events).gateway.sessions.limits = s.gateway.sessions.limits := by
  unfold run
  induction events generalizing s with
  | nil => rfl
  | cons e events ih => exact (ih _).trans step_limits

theorem step_distinct (h : s.gateway.sessions.Distinct) :
    (s.step e).gateway.sessions.Distinct := by
  cases e with
  | sweep now => exact h.sweep now
  | request w r =>
    rw [step_service]
    split
    · exact Gateway.handle_distinct h
    · exact (h.resolve _ _ _).save _ _
    · exact h

theorem run_distinct (h : s.gateway.sessions.Distinct) (events : List ServerEvent) :
    (s.run events).gateway.sessions.Distinct := by
  unfold run
  induction events generalizing s with
  | nil => exact h
  | cons e events ih => exact ih (step_distinct h)

/-- **One event**: the session under an id changes by the visits to it only. -/
theorem knows_step (hdistinct : s.gateway.sessions.Distinct)
    (h : s.gateway.sessions.Knows id e.time known) :
    (s.step e).gateway.sessions.Knows id e.time
      (Visit.leftAll s.gateway.sessions.limits s.gateway.cookieName id (s.visitsOf id e)
        known) := by
  cases e with
  | sweep now =>
    intro t ht
    exact (SessionStore.alive?_sweep hdistinct ht).trans (h t ht)
  | request w r =>
    have hassign := Gateway.found_assign s.gateway w w.freshRequest r
    unfold visitsOf
    dsimp only
    rw [step_service]
    by_cases hid : (s.gateway.found w r.headers).id = id
    · rw [if_pos hid]
      split
      · rename_i m _
        have hself := Gateway.knows_handle_self (g := s.gateway) (w := w) (m := m)
          (r := RequestId.assign w.freshRequest r)
        rw [hassign, hid, RequestId.assign_requestCookie?] at hself
        refine Eq.subst (motive := fun known => SessionStore.Knows _ id w.arrival known) ?_ hself
        exact (Gateway.left_visit h hid).symm
      · exact Gateway.knows_posted h hid
      · exact h
    · rw [if_neg hid]
      split
      · refine Gateway.knows_handle_other h ?_
        rw [hassign]
        exact hid
      · exact h.kept hid _
      · exact h

/-- **A whole run**: the session under an id is what the visits to it leave. -/
theorem knows_run (hdistinct : s.gateway.sessions.Distinct)
    (h : s.gateway.sessions.Knows id now known) (hfrom : ∀ e ∈ events, now ≤ e.time)
    (hordered : events.Pairwise (·.time ≤ ·.time)) (hlater : ∀ e ∈ events, e.time ≤ later)
    (hle : now ≤ later) :
    (s.run events).gateway.sessions.Knows id later
      (Visit.leftAll s.gateway.sessions.limits s.gateway.cookieName id (s.visits id events)
        known) := by
  induction events generalizing s now known with
  | nil => exact h.mono hle
  | cons e events ih =>
    obtain ⟨hnext, hordered⟩ := List.pairwise_cons.mp hordered
    have hstep := knows_step hdistinct (h.mono (hfrom e List.mem_cons_self))
    have hname : (s.step e).gateway.cookieName = s.gateway.cookieName := run_cookieName s [e]
    have hrest := ih (step_distinct hdistinct) hstep hnext hordered
      (fun e' he' => hlater e' (List.mem_cons_of_mem _ he')) (hlater e List.mem_cons_self)
    rw [step_limits, hname] at hrest
    unfold Visit.leftAll at hrest ⊢
    rw [visits, List.foldl_append]
    exact hrest

end Server
end AccessGateway

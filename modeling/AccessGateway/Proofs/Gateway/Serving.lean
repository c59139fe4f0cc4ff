import AccessGateway.Gateway.Router
import AccessGateway.Proofs.Circuit.SharedBreaker
import AccessGateway.Proofs.Session.Holding

/-!
# Serving one request, part by part

`Gateway.handle` does in one go what has parts of its own: the session that a request finds, the
verdict of its mapping, the backend's part, and the cookies for the browser at the end.  Here each
part has a name, and `handle_eq` puts the whole together again, so that later proofs look at one
part at a time.

## Results

* `handle_eq`, `dispatch_eq` — an exchange is its parts put together.
* `forward_cases`, `deliver_eq` — everything that the backend's part can come to.
* `served_sent` — what is sent to backends.
* `handle_setup` — table, names and ports stay what they were at the start.
-/

set_option autoImplicit false

namespace AccessGateway

/-- The answers that backends gave to what was sent to them. -/
def Surroundings.answers (w : Surroundings) (sent : List Request) : List Response :=
  sent.filterMap fun outbound =>
    match w.backend outbound with
    | .value answer => some answer
    | _ => none

namespace Gateway

/-! ## Parts of an exchange -/

/-- The live session that the session cookie of a request names, or else a fresh one. -/
def sessionOf (g : Gateway) (w : Surroundings) (headers : Headers) : Session :=
  ((headers.requestCookie? g.cookieName).bind (g.sessions.live? · w.arrival)).getD .fresh

/-- The session that a request gets, with its id. -/
def found (g : Gateway) (w : Surroundings) (headers : Headers) : SessionStore.Resolved :=
  (g.sessionFor w headers).2.1

/-- What a mapping decides on a request. -/
def verdict (g : Gateway) (w : Surroundings) (m : Mapping) (r : Request) : Authorization :=
  m.authorize w.identity ⟨r.headers, r.target.path, w.arrival⟩ (g.found w r.headers).session
    (.ofSession (g.found w r.headers).session)

/-- The gateway after the decision. -/
def entered (g : Gateway) (w : Surroundings) (m : Mapping) (r : Request) : Gateway :=
  (g.sessionFor w r.headers).1.save (g.found w r.headers).id (g.verdict w m r).session

/-- How a request fares up to the cookies for the browser. -/
def served (g : Gateway) (w : Surroundings) (m : Mapping) (r : Request) :
    Gateway × BackendResult × List Request × Metrics :=
  let v := g.verdict w m r
  match v.decision with
  | .failed e => (g.entered w m r, .failed e, [], [])
  | .denied =>
    (g.entered w m r, .relayed (m.deny r.target.path v.state.denyStatus) false, [], [m.denial])
  | .outOfTime => (g.entered w m r, .outOfTime, [], [])
  | .allowed =>
    (g.entered w m r).forward w m (g.found w r.headers).id v.session r
      (v.state.injection v.session r.target.path)

/-- The answer that the backend's part ended with, and whether it ended the session. -/
def BackendResult.answer? : BackendResult → Option (Response × Bool)
  | .relayed r loggedOut => some (r, loggedOut)
  | .failed e => some (e.response, false)
  | .outOfTime => none

variable {g : Gateway} {w : Surroundings} {m : Mapping} {r : Request}

theorem found_session : (g.found w r.headers).session = g.sessionOf w r.headers :=
  SessionStore.resolve_session _ _ _ _

/-- An answered exchange; `after` is the gateway before the cookies for the browser. -/
def conclude (g : Gateway) (w : Surroundings) (m : Mapping) (r : Request) (after : Gateway)
    (response : Response) (loggedOut : Bool) (sent : List Request) (events : Metrics) : Exchange :=
  let v := g.verdict w m r
  let settled := after.settle (g.found w r.headers).id (g.found w r.headers).created
    v.state.issuedJwt (v.state.loggedOut || loggedOut) response
  ⟨settled.1, some settled.2.1, v.calls, v.checks, sent,
    (g.sessionFor w r.headers).2.2 ++ v.metrics ++ events ++ settled.2.2⟩

/-- An exchange is its parts put together. -/
theorem handle_eq :
    g.handle w m r =
      let s := g.served w m r
      match s.2.1.answer? with
      | some (response, loggedOut) => g.conclude w m r s.1 response loggedOut s.2.2.1 s.2.2.2
      | none =>
        let v := g.verdict w m r
        ⟨s.1, none, v.calls, v.checks, s.2.2.1,
          (g.sessionFor w r.headers).2.2 ++ v.metrics ++ s.2.2.2⟩ := by
  unfold handle conclude served entered verdict found
  generalize g.sessionFor w r.headers = f
  dsimp only
  generalize m.authorize w.identity _ f.2.1.session _ = v
  rcases v with ⟨_ | _ | e | _, s, st, calls, checks, metrics⟩
  · dsimp only
    rcases (f.1.save f.2.1.id s).forward w m f.2.1.id s r (st.injection s r.target.path) with
      ⟨after, response | e | _, sent, events⟩
    · rfl
    · rfl
    · rfl
  · rfl
  · rfl
  · simp [BackendResult.answer?]

theorem handle_calls : (g.handle w m r).calls = (g.verdict w m r).calls := by
  rw [handle_eq]
  dsimp only
  split <;> rfl

theorem handle_sent : (g.handle w m r).sent = (g.served w m r).2.2.1 := by
  rw [handle_eq]
  dsimp only
  split <;> rfl

/-! ## The backend's part -/

variable {id : String} {s : Session} {injection : Injection}

/-- What the browser gets of a backend's answer, but for cookies; nothing if the time is over while
    its body is read. -/
def relayOf (w : Surroundings) (r : Request) (answer : Response) :
    Option (Except GatewayError Response) :=
  relay? w r { answer with headers := answer.headers.erase .setCookie }

/-- An answer that goes on is one that can be relayed. -/
theorem relay_of_relayOf {answer response : Response}
    (h : relayOf w r answer = some (.ok response)) :
    Response.relay { answer with headers := answer.headers.erase .setCookie } r.version r.method
      w.date = .ok response := by
  unfold relayOf relay? at h
  split at h
  · cases h
  · exact Option.some.inj h

/-- The cookies of an answer are harvested in any case, and then it is relayed or not. -/
theorem deliver_eq (answer : Response) :
    g.deliver w m id s r answer =
      let h := Harvest.run s m.contextRoot (answer.headers.values .setCookie) w.answered
      (g.save id h.1,
        match relayOf w r answer with
        | none => .outOfTime
        | some (.error e) => .failed e
        | some (.ok response) =>
          .relayed
            { response with
              headers := response.headers.appendAll ⟨h.2.forward.map (.setCookie, ·)⟩ }
            h.2.loggedOut) := by
  unfold deliver Response.takeSetCookies
  dsimp only
  split
  · rename_i hr
    rw [relayOf, hr]
  · rename_i hr
    rw [relayOf, hr]
  · rename_i hr
    rw [relayOf, hr]

/-- A request that may pass is sent exactly if it has an address and the breaker admits it. -/
theorem forward_sent :
    (g.forward w m id s r injection).2.2.1 =
      if (g.breakers.acquire m.name w.decided).2.1.isSome then
        (Outbound.request m.backend r injection g.proxy g.localPort).toOption.toList
      else [] := by
  unfold forward
  generalize Outbound.request m.backend r injection g.proxy g.localPort = request
  cases request with
  | error e => simp [Except.toOption]
  | ok outbound =>
    dsimp only
    cases ha : (g.breakers.acquire m.name w.decided).2.1 with
    | none =>
      rw [Breakers.call_refused ha]
      rfl
    | some p =>
      rw [Breakers.call_admitted ha]
      cases w.backend outbound <;> rfl

/-- What a gateway keeps from its start. -/
def setup (g : Gateway) : MappingTable × ProxySettings × String × Nat :=
  (g.table, g.proxy, g.cookieName, g.localPort)

/-- Either no backend answered, and all sessions are what they were, or one answered, and its answer
    was delivered. -/
theorem forward_cases {after : Gateway} {result : BackendResult} {sent : List Request}
    {events : Metrics} (h : g.forward w m id s r injection = (after, result, sent, events)) :
    (w.answers sent = [] ∧ after.sessions = g.sessions ∧ after.setup = g.setup ∧
      (result = .outOfTime ∨ ∃ e, result = .failed e)) ∨
    ∃ (answer : Response) (g' : Gateway), w.answers sent = [answer] ∧
      g'.sessions = g.sessions ∧ g'.setup = g.setup ∧
      (after, result) = g'.deliver w m id s r answer := by
  unfold forward at h
  revert h
  generalize Outbound.request m.backend r injection g.proxy g.localPort = request
  intro h
  cases request with
  | error e =>
    cases h
    exact .inl ⟨rfl, rfl, rfl, .inr ⟨e, rfl⟩⟩
  | ok outbound =>
    dsimp only at h
    cases ha : (g.breakers.acquire m.name w.decided).2.1 with
    | none =>
      rw [Breakers.call_refused ha] at h
      cases h
      exact .inl ⟨rfl, rfl, rfl, .inr ⟨_, rfl⟩⟩
    | some p =>
      rw [Breakers.call_admitted ha] at h
      cases hb : w.backend outbound with
      | value answer =>
        rw [hb] at h
        cases h
        refine .inr ⟨answer, _, by simp [Surroundings.answers, hb], ?_, ?_, rfl⟩
        · rfl
        · rfl
      | failure reason =>
        rw [hb] at h
        cases h
        exact .inl ⟨by simp [Surroundings.answers, hb], rfl, rfl, .inr ⟨_, rfl⟩⟩
      | noAnswer =>
        rw [hb] at h
        cases h
        exact .inl ⟨by simp [Surroundings.answers, hb], rfl, rfl, .inr ⟨_, rfl⟩⟩
      | abandoned =>
        rw [hb] at h
        cases h
        exact .inl ⟨by simp [Surroundings.answers, hb], rfl, rfl, .inl rfl⟩

theorem deliver_setup (answer : Response) : (g.deliver w m id s r answer).1.setup = g.setup := by
  rw [deliver_eq]
  rfl

theorem forward_setup : (g.forward w m id s r injection).1.setup = g.setup := by
  rcases hf : g.forward w m id s r injection with ⟨after, result, sent, events⟩
  rcases forward_cases hf with ⟨-, -, hsetup, -⟩ | ⟨answer, g', -, -, hsetup, hd⟩
  · exact hsetup
  · have hafter : after = (g'.deliver w m id s r answer).1 := congrArg (·.1) hd
    rw [hafter, deliver_setup, hsetup]

/-! ## The whole exchange -/

theorem settle_setup (created : Bool) (issuedJwt : Option String) (loggedOut : Bool)
    (response : Response) :
    (g.settle id created issuedJwt loggedOut response).1.setup = g.setup := by
  unfold settle
  cases loggedOut with
  | true => rfl
  | false => cases created <;> rfl

theorem served_setup : (g.served w m r).1.setup = g.setup := by
  unfold served
  dsimp only
  split
  · rfl
  · rfl
  · rfl
  · exact forward_setup

theorem handle_setup : (g.handle w m r).gateway.setup = g.setup := by
  rw [handle_eq]
  dsimp only
  split
  · exact (settle_setup _ _ _ _).trans served_setup
  · exact served_setup

/-- What is sent to backends: nothing, unless the request may pass. -/
theorem served_sent :
    (g.served w m r).2.2.1 =
      if (g.verdict w m r).decision = .allowed then
        ((g.entered w m r).forward w m (g.found w r.headers).id (g.verdict w m r).session r
          ((g.verdict w m r).state.injection (g.verdict w m r).session r.target.path)).2.2.1
      else [] := by
  unfold served
  dsimp only
  split
  · rename_i hd
    simp [hd]
  · rename_i hd
    simp [hd]
  · rename_i hd
    simp [hd]
  · rename_i hd
    simp [hd]

/-- The exchange with a request, before it is counted. -/
def uncounted (g : Gateway) (w : Surroundings) (r : Request) : Exchange :=
  match r.check with
  | .error e => ⟨g, some e.response, [], [], [], []⟩
  | .ok () => g.handle w (g.table.resolve r.target.path) r

/-- Counting changes nothing but the metrics. -/
theorem dispatch_eq (g : Gateway) (w : Surroundings) (r : Request) :
    ∃ metrics, g.dispatch w r = { g.uncounted w r with metrics } := by
  unfold dispatch uncounted
  dsimp only
  generalize g.handle w (g.table.resolve r.target.path) r = x
  cases r.check with
  | error e => exact ⟨_, rfl⟩
  | ok u =>
    dsimp only
    split
    · exact ⟨_, rfl⟩
    · exact ⟨x.metrics, rfl⟩

/-- A request that can be relayed is handled under its mapping. -/
theorem dispatch_of_check (h : r.check = .ok ()) :
    ∃ metrics, g.dispatch w r =
      { g.handle w (g.table.resolve r.target.path) r with metrics } := by
  obtain ⟨metrics, hx⟩ := dispatch_eq g w r
  unfold uncounted at hx
  rw [h] at hx
  exact ⟨metrics, hx⟩

/-- All others are answered at once. -/
theorem dispatch_of_error {e : GatewayError} (h : r.check = .error e) :
    ∃ metrics, g.dispatch w r = ⟨g, some e.response, [], [], [], metrics⟩ := by
  obtain ⟨metrics, hx⟩ := dispatch_eq g w r
  unfold uncounted at hx
  rw [h] at hx
  exact ⟨metrics, hx⟩

theorem dispatch_calls : (g.dispatch w r).calls = (g.uncounted w r).calls := by
  obtain ⟨metrics, hx⟩ := dispatch_eq g w r
  rw [hx]

theorem dispatch_sent : (g.dispatch w r).sent = (g.uncounted w r).sent := by
  obtain ⟨metrics, hx⟩ := dispatch_eq g w r
  rw [hx]

end Gateway
end AccessGateway

import AccessGateway.Proofs.Access.Aftermath
import AccessGateway.Proofs.Gateway.Run
import AccessGateway.Proofs.Relay.Framing

/-!
# How an exchange closes

When an exchange is over, the session of the request is in the store as all harvests left it, or it
is gone, and the answer has the cookies that are due.

## Results

* `Gateway.handle_sessions` — the store after an exchange.
* `Gateway.finished_harvested` — the session at the end is the one that was found, with the cookies
  of providers and backends harvested.
* `Server.run_all` — what harvests preserve holds for all sessions of a run.
* `Gateway.ends_iff` — when the session is removed.
* `Gateway.handle_setCookies` — all cookies that the browser gets.
-/

set_option autoImplicit false

namespace AccessGateway

/-! ## Cookies in answers -/

namespace Headers

theorem values_appendAll (h more : Headers) (name : HeaderName) :
    (h.appendAll more).values name = h.values name ++ more.values name := by
  simp [values, appendAll]

theorem values_map (name : HeaderName) (values : List HeaderValue) :
    Headers.values ⟨values.map (name, ·)⟩ name = values := by
  simp [Headers.values, List.filter_map, Function.comp_def]

end Headers

namespace Response

theorem addCookie_setCookies (r : Response) (cookie : String) :
    (r.addCookie cookie).headers.values .setCookie =
      r.headers.values .setCookie ++ (HeaderValue.ofText? cookie).toList := by
  unfold addCookie
  split
  · rename_i value hv
    rw [hv, Headers.values_append, if_pos rfl]
    rfl
  · rename_i hv
    rw [hv]
    simp

end Response

theorem Mapping.deny_setCookies (m : Mapping) (path : String) (chosen : Option Status) :
    (m.deny path chosen).headers.values .setCookie = [] := by
  unfold deny
  split
  · rfl
  · rfl
  · rfl
  · rfl
  · rfl
  · split
    · rename_i value _
      show ((Headers.empty.insert .location value).values .setCookie) = []
      rw [Headers.values_insert, if_neg (by decide)]
      rfl
    · rfl

/-- Relaying adds no cookie and takes none away. -/
theorem Response.relay_setCookies {backend response : Response} {frontend : Version}
    {method : Method} {now : Timestamp} (h : backend.relay frontend method now = .ok response) :
    response.headers.values .setCookie = backend.headers.values .setCookie := by
  have hkept : HeaderName.setCookie.isHopByHop = false := by decide
  rw [relay_values h (by decide) (by decide) (by decide), hkept]
  rfl

/-- The cookies in the answers that backends gave. -/
def Surroundings.backendCookies (w : Surroundings) (sent : List Request) : List HeaderValue :=
  (w.answers sent).flatMap fun answer => answer.headers.values .setCookie

namespace Gateway

variable {g : Gateway} {w : Surroundings} {m : Mapping} {r : Request}

/-! ## The session at the end -/

/-- The session of a request at the end of the exchange. -/
def finished (g : Gateway) (w : Surroundings) (m : Mapping) (r : Request) : Session :=
  (w.answers (g.served w m r).2.2.1).foldl
    (fun s answer =>
      (Harvest.run s m.contextRoot (answer.headers.values .setCookie) w.answered).1)
    (g.verdict w m r).session

/-- Whether the session is removed at the end of the exchange. -/
def ends (g : Gateway) (w : Surroundings) (m : Mapping) (r : Request) : Bool :=
  match (g.served w m r).2.1.answer? with
  | some (_, loggedOut) => (g.verdict w m r).state.loggedOut || loggedOut
  | none => false

/-- The store with the session of a request put into it. -/
def opened (g : Gateway) (w : Surroundings) (r : Request) : SessionStore :=
  (g.sessions.resolve (r.headers.requestCookie? g.cookieName) w.freshSession w.arrival).1

/-- Everything that a request can have come to before the cookies for the browser: no backend
    answered, or one answered and its answer was delivered. -/
theorem served_cases {after : Gateway} {result : BackendResult} {sent : List Request}
    {events : Metrics} (h : g.served w m r = (after, result, sent, events)) :
    (w.answers sent = [] ∧
      after.sessions = (g.opened w r).save (g.found w r.headers).id (g.verdict w m r).session ∧
      (result = .outOfTime ∨ ∃ response, response.headers.values .setCookie = [] ∧
        result.answer? = some (response, false))) ∨
    ∃ answer, w.answers sent = [answer] ∧
      let t := Harvest.run (g.verdict w m r).session m.contextRoot
        (answer.headers.values .setCookie) w.answered
      after.sessions = (g.opened w r).save (g.found w r.headers).id t.1 ∧
      (relayOf w r answer = none ∧ result = .outOfTime ∨
        (∃ e, relayOf w r answer = some (.error e) ∧ result = .failed e) ∨
        ∃ response, relayOf w r answer = some (.ok response) ∧
          result = .relayed
            { response with
              headers := response.headers.appendAll ⟨t.2.forward.map (.setCookie, ·)⟩ }
            t.2.loggedOut) := by
  unfold served at h
  dsimp only at h
  split at h
  · rename_i e _
    cases h
    exact .inl ⟨rfl, rfl, .inr ⟨e.response, rfl, rfl⟩⟩
  · cases h
    exact .inl ⟨rfl, rfl, .inr ⟨_, Mapping.deny_setCookies _ _ _, rfl⟩⟩
  · cases h
    exact .inl ⟨rfl, rfl, .inl rfl⟩
  · rcases forward_cases h with ⟨hnone, hsessions, -, hresult⟩ |
      ⟨answer, g', hone, hsessions, -, hd⟩
    · refine .inl ⟨hnone, hsessions, ?_⟩
      rcases hresult with rfl | ⟨e, rfl⟩
      · exact .inl rfl
      · exact .inr ⟨e.response, rfl, rfl⟩
    · refine .inr ⟨answer, hone, ?_⟩
      rw [deliver_eq] at hd
      obtain ⟨hafter, hresult⟩ := Prod.mk.inj hd
      refine ⟨?_, ?_⟩
      · rw [hafter]
        show g'.sessions.save _ _ = _
        rw [hsessions]
        exact SessionStore.save_save _ _
      · split at hresult
        · rename_i he
          exact .inl ⟨he, hresult⟩
        · rename_i e he
          exact .inr (.inl ⟨e, he, hresult⟩)
        · rename_i response he
          exact .inr (.inr ⟨response, he, hresult⟩)

theorem served_sessions :
    (g.served w m r).1.sessions =
      (g.opened w r).save (g.found w r.headers).id (g.finished w m r) := by
  rcases hs : g.served w m r with ⟨after, result, sent, events⟩
  unfold finished
  rw [hs]
  rcases served_cases hs with ⟨hnone, hsessions, -⟩ | ⟨answer, hone, hsessions, -⟩
  · rw [hnone]
    exact hsessions
  · rw [hone]
    exact hsessions

theorem settle_sessions (id : String) (created : Bool) (issuedJwt : Option String)
    (loggedOut : Bool) (response : Response) :
    (g.settle id created issuedJwt loggedOut response).1.sessions =
      if loggedOut = true then (g.sessions.remove id).1 else g.sessions := by
  unfold settle
  cases loggedOut with
  | true => rfl
  | false => cases created <;> rfl

/-- **The store after an exchange**: the session is there as all harvests left it, or removed. -/
theorem handle_sessions :
    (g.handle w m r).gateway.sessions =
      let st := (g.opened w r).save (g.found w r.headers).id (g.finished w m r)
      if g.ends w m r = true then (st.remove (g.found w r.headers).id).1 else st := by
  rw [handle_eq, ← served_sessions]
  unfold ends
  dsimp only
  cases (g.served w m r).2.1.answer? with
  | some answer => exact settle_sessions _ _ _ _ _
  | none => rfl

theorem verdict_leaves :
    Mapping.Leaves (g.found w r.headers).session (.ofSession (g.found w r.headers).session)
      (g.verdict w m r) (m.harvested w.identity (g.verdict w m r).calls) :=
  Mapping.authorize_leaves _ _ _ _

theorem verdict_loggedOut :
    (g.verdict w m r).state.loggedOut =
      Harvest.endsSession (m.harvested w.identity (g.verdict w m r).calls) := by
  rw [verdict_leaves.loggedOut]
  rfl

/-- The session at the end is the one that was found, with the cookies of providers and backends
    harvested. -/
theorem finished_harvested :
    (g.sessionOf w r.headers).Harvested (g.finished w m r)
      (m.harvested w.identity (g.handle w m r).calls ++
        w.backendCookies (g.handle w m r).sent) := by
  rw [handle_calls, handle_sent, ← found_session]
  refine verdict_leaves.session.trans ?_
  unfold finished Surroundings.backendCookies
  -- by induction on the answers: that there is one at most plays no part
  generalize (g.verdict w m r).session = s
  induction w.answers (g.served w m r).2.2.1 generalizing s with
  | nil => exact .refl s
  | cons answer answers ih =>
    exact (Session.harvested_run s m.contextRoot _ w.answered).trans (ih _)

/-- What harvests preserve holds for all sessions that are held, if it does for a fresh one. -/
theorem handle_all {P : Session → Prop} (hfresh : P .fresh)
    (hharvest : ∀ s t values, s.Harvested t values → P s → P t) (h : g.sessions.All P) :
    (g.handle w m r).gateway.sessions.All P := by
  have hopened : (g.opened w r).All P := h.resolve hfresh _ _ _
  have hfound : P (g.sessionOf w r.headers) := by
    rw [← found_session]
    exact h.resolve_session hfresh _ _ _
  have hfinished : P (g.finished w m r) := hharvest _ _ _ finished_harvested hfound
  rw [handle_sessions]
  dsimp only
  split
  · exact ((hopened.allBut _).save _).all_remove
  · exact (hopened.allBut _).all_save hfinished

/-- When the session is removed: there is an answer, and a provider ended the session, or a backend
    did whose answer could be relayed. -/
theorem ends_iff :
    g.ends w m r = true ↔
      (g.handle w m r).response.isSome = true ∧
      (Harvest.endsSession (m.harvested w.identity (g.handle w m r).calls) = true ∨
        ∃ answer ∈ w.answers (g.handle w m r).sent,
          Harvest.endsSession (answer.headers.values .setCookie) = true ∧
          ∃ response, relayOf w r answer = some (.ok response)) := by
  rw [handle_calls, handle_sent, handle_eq, ← verdict_loggedOut]
  unfold ends
  rcases hs : g.served w m r with ⟨after, result, sent, events⟩
  rcases served_cases hs with ⟨hnone, -, rfl | ⟨response, -, hanswer⟩⟩ |
    ⟨answer, hone, -, ⟨-, rfl⟩ | ⟨e, he, rfl⟩ | ⟨response, he, rfl⟩⟩
  · simp [BackendResult.answer?]
  · simp [hanswer, hnone, conclude]
  · simp [BackendResult.answer?]
  · simp [BackendResult.answer?, hone, he, conclude]
  · simp [BackendResult.answer?, hone, he, conclude, Harvest.run_loggedOut]

/-- Without a command in the cookies that were harvested the session is not removed. -/
theorem endsSession_of_ends (h : g.ends w m r = true) :
    Harvest.endsSession (m.harvested w.identity (g.handle w m r).calls ++
      w.backendCookies (g.handle w m r).sent) = true := by
  obtain ⟨-, hprovider | ⟨answer, hanswer, hbackend, -⟩⟩ := ends_iff.mp h
  · exact Harvest.endsSession_of_subset (List.subset_append_left _ _) hprovider
  · refine Harvest.endsSession_of_subset (fun v hv => ?_) hbackend
    exact List.mem_append_right _ (List.mem_flatMap.mpr ⟨answer, hanswer, hv⟩)

/-! ## The cookies for the browser -/

/-- The cookies of its own that the gateway adds to an answer. -/
def due (g : Gateway) (id : String) (created : Bool) (issuedJwt : Option String)
    (loggedOut : Bool) : List HeaderValue :=
  (issuedJwt.bind fun token =>
    HeaderValue.ofText? (BrowserCookie.token TokenExchange.jwtCookie token)).toList ++
  if loggedOut then (HeaderValue.ofText? (BrowserCookie.expired g.cookieName)).toList
  else if created then (HeaderValue.ofText? (BrowserCookie.session g.cookieName id)).toList
  else []

/-- The cookies of backends that go on to the browser. -/
def passed (w : Surroundings) (r : Request) (sent : List Request) : List HeaderValue :=
  (w.answers sent).flatMap fun answer =>
    match relayOf w r answer with
    | some (.ok _) => (answer.headers.values .setCookie).filter (!Harvest.isControl ·)
    | _ => []

theorem settle_setCookies (id : String) (created : Bool) (issuedJwt : Option String)
    (loggedOut : Bool) (response : Response) :
    (g.settle id created issuedJwt loggedOut response).2.1.headers.values .setCookie =
      response.headers.values .setCookie ++ g.due id created issuedJwt loggedOut := by
  unfold settle due
  cases issuedJwt <;> cases loggedOut <;> cases created <;>
    simp [Response.addCookie_setCookies]

/-- The answer before the gateway adds its own cookies has those of the backend. -/
theorem served_setCookies {response : Response} {loggedOut : Bool}
    (h : (g.served w m r).2.1.answer? = some (response, loggedOut)) :
    response.headers.values .setCookie = passed w r (g.served w m r).2.2.1 := by
  unfold passed
  rcases hs : g.served w m r with ⟨after, result, sent, events⟩
  rw [hs] at h
  rcases served_cases hs with ⟨hnone, -, rfl | ⟨response', hempty, hanswer⟩⟩ |
    ⟨answer, hone, -, ⟨-, rfl⟩ | ⟨e, he, rfl⟩ | ⟨relayed, he, rfl⟩⟩
  · cases h
  · dsimp only at h
    rw [hanswer] at h
    cases h
    rw [hnone, hempty]
    rfl
  · cases h
  · cases h
    simp [hone, he]
    rfl
  · cases h
    have hrelayed : relayed.headers.values .setCookie = [] := by
      rw [Response.relay_setCookies (relay_of_relayOf he)]
      exact (Headers.values_erase _ _ _).trans (if_pos rfl)
    dsimp only
    rw [Headers.values_appendAll, Headers.values_map, hrelayed, Harvest.run_forward, hone]
    simp [he]

/-- **All cookies that the browser gets**: those of the backend that go on, and the gateway's
    own. -/
theorem handle_setCookies {response : Response}
    (h : (g.handle w m r).response = some response) :
    response.headers.values .setCookie =
      passed w r (g.handle w m r).sent ++
        g.due (g.found w r.headers).id (g.found w r.headers).created
          (g.verdict w m r).state.issuedJwt (g.ends w m r) := by
  have hname : (g.served w m r).1.cookieName = g.cookieName :=
    congrArg (·.2.2.1) (served_setup (g := g) (w := w) (m := m) (r := r))
  rw [handle_sent]
  rw [handle_eq] at h
  unfold ends
  dsimp only at h
  cases ha : (g.served w m r).2.1.answer? with
  | none =>
    rw [ha] at h
    cases h
  | some answer =>
    rw [ha] at h
    cases h
    dsimp only [conclude]
    rw [settle_setCookies, served_setCookies ha]
    unfold due
    rw [hname]

end Gateway

/-! ## All sessions of a run -/

/-- What kept assertions preserve holds for all sessions after a post to the SAML endpoint. -/
theorem PostBinding.handle_all {P : Session → Prop} {g : Gateway} {w : Surroundings}
    {root : String} {r : Request} (hfresh : P .fresh)
    (hkeep : ∀ s posted, P s → P (keep s posted)) (h : g.sessions.All P) :
    (handle g w root r).gateway.sessions.All P := by
  rcases @handle_gateway g w root r with hsame | ⟨posted, hkept⟩
  · rw [hsame]
    exact h
  · rw [hkept]
    have hopened : (g.opened w r).All P := h.resolve hfresh _ _ _
    have hfound : P (g.found w r.headers).session := h.resolve_session hfresh _ _ _
    exact (hopened.allBut _).all_save (hkeep _ posted hfound)

namespace Server

variable {P : Session → Prop}

/-- What harvests and kept assertions preserve holds for all sessions of a run, if it does for a
    fresh one. -/
theorem run_all {s : Server} (hfresh : P .fresh)
    (hharvest : ∀ s t values, s.Harvested t values → P s → P t)
    (hkeep : ∀ s posted, P s → P (PostBinding.keep s posted)) (h : s.gateway.sessions.All P)
    (events : List ServerEvent) : (s.run events).gateway.sessions.All P := by
  refine run_induction (P := fun g => g.sessions.All P) h ?_ ?_ ?_ events
  · intro g w m r hg
    exact Gateway.handle_all hfresh hharvest hg
  · intro g w root r hg
    exact PostBinding.handle_all hfresh hkeep hg
  · intro g now hg
    exact SessionStore.All.sweep hg now

end Server

/-! ## The answer as it leaves the server -/

theorem RequestId.echo_values (request : Headers) (r : Response) {name : HeaderName}
    (hid : name ≠ .requestId) : (echo request r).headers.values name = r.headers.values name := by
  unfold echo
  split
  · rfl
  · rw [Headers.values_insertSome, if_neg fun h => hid h.1.symm]

namespace Server

theorem finish_values (method : Method) (r : Response) {name : HeaderName}
    (hlength : name ≠ .contentLength) :
    (finish method r).headers.values name = r.headers.values name := by
  have htold : ∀ value, (r.setHeader .contentLength value).headers.values name =
      r.headers.values name := by
    intro value
    exact (Headers.values_insert _ _ _ _).trans (if_neg hlength.symm)
  unfold finish
  split
  · split <;> rfl
  · dsimp only
    split
    · split
      · rfl
      · exact htold _
    · split
      · rfl
      · exact htold _

/-- On its way to the browser an answer gets an id, a length and the methods of the SAML endpoint at
    most. -/
theorem answer_values (s : Server) (w : Surroundings) (r : Request) {name : HeaderName}
    (hid : name ≠ .requestId) (hlength : name ≠ .contentLength) (hmethods : name ≠ allowed) :
    (s.answer w r).2.2.headers.values name =
      ((s.exchange w r).response.getD (.ofStatus .requestTimeout)).headers.values name := by
  have hallowed : ∀ (c : Prop) [Decidable c] (response : Response) (value : HeaderValue),
      (if c then response.setHeader allowed value else response).headers.values name =
        response.headers.values name := by
    intro c _ response value
    split
    · exact (Headers.values_insert _ _ _ _).trans (if_neg hmethods.symm)
    · rfl
  unfold exchange answer
  dsimp only
  rw [finish_values _ _ hlength, hallowed, RequestId.echo_values _ _ hid]

theorem answer_setCookies (s : Server) (w : Surroundings) (r : Request) :
    (s.answer w r).2.2.headers.values .setCookie =
      ((s.exchange w r).response.getD (.ofStatus .requestTimeout)).headers.values .setCookie :=
  answer_values s w r (by decide) (by decide) (by decide)

/-- On its way to the browser an answer keeps its status. -/
theorem answer_status (s : Server) (w : Surroundings) (r : Request) :
    (s.answer w r).2.2.status =
      ((s.exchange w r).response.getD (.ofStatus .requestTimeout)).status := by
  have hecho : ∀ request response, (RequestId.echo request response).status = response.status := by
    intro request response
    unfold RequestId.echo
    split <;> rfl
  have hallowed : ∀ (c : Prop) [Decidable c] (response : Response) (value : HeaderValue),
      (if c then response.setHeader allowed value else response).status = response.status := by
    intro c _ response value
    split <;> rfl
  have hfinish : ∀ method response, (finish method response).status = response.status := by
    intro method response
    unfold finish
    split
    · split <;> rfl
    · dsimp only
      split <;> split <;> rfl
  unfold exchange answer
  dsimp only
  rw [hfinish, hallowed, hecho]

end Server
end AccessGateway

import AccessGateway.Proofs.Gateway.Closing
import AccessGateway.Proofs.Gateway.Gate
import AccessGateway.Proofs.Relay.Propagation
import AccessGateway.Proofs.Session.ControlCookie

/-!
# Control cookies stay with the gateway

No jar ever holds a control cookie, so none is replayed to a backend.  The browser gets a backend's
control cookie exactly if that is no plain text and the answer can be relayed.

## Results

* `Server.run_guarded` — the jars of all sessions, after every run.
* `Gateway.cookies_of_mem_sent`, `Gateway.cookie_of_mem_sent` — the cookies that are sent to
  backends.
* `Server.control_mem_answer` — the control cookies that browsers get.
* `control_cookie_leaks_iff` — all of it, after every run.
-/

set_option autoImplicit false

namespace AccessGateway

/-! ## What is replayed -/

theorem Headers.mem_insert {h : Headers} {name : HeaderName} {value : HeaderValue}
    {e : HeaderName × HeaderValue} (he : e ∈ (h.insert name value).entries) :
    e ∈ h.entries ∨ e = (name, value) := by
  rcases List.mem_append.mp he with he | he
  · exact .inl (List.mem_filter.mp he).1
  · exact .inr (List.mem_singleton.mp he)

theorem HeaderJar.mem_working {jar : HeaderJar} {e : HeaderName × HeaderValue}
    (h : e ∈ jar.working.entries) : e ∈ jar.entries := by
  have hall : e ∈ Headers.empty.entries ∨ e ∈ jar.entries := by
    unfold working at h
    -- by induction on the entries, for every set of fields to start from
    generalize Headers.empty = acc at h ⊢
    generalize jar.entries = entries at h ⊢
    induction entries generalizing acc with
    | nil => exact .inl h
    | cons f entries ih =>
      rcases ih _ h with h | h
      · rcases Headers.mem_insert h with h | rfl
        · exact .inl h
        · exact .inr List.mem_cons_self
      · exact .inr (List.mem_cons_of_mem _ h)
  rcases hall with h | h
  · cases h
  · exact h

/-- What a session writes into a `Cookie` field is plain text without a control cookie. -/
theorem Session.Guarded.headerFor {s : Session} (hs : s.Guarded) {path text : String}
    (h : s.cookies.headerFor path = some text) :
    (∀ c ∈ text.toList, HeaderValue.isTextChar c = true) ∧
      ∀ p ∈ Cookie.split text, p.1 ≠ Command.cookieName := by
  have hreplayable : ∀ p ∈ s.cookies.cookiesFor path, Harvest.Replayable p := hs.cookiesFor
  rw [CookieJar.headerFor_eq] at h
  split at h
  · cases h
  · cases h
    refine ⟨Harvest.isTextChar_write hreplayable, fun p hp => ?_⟩
    rw [Cookie.split_write fun q hq => (hreplayable q hq).tame] at hp
    exact (hreplayable p hp).name_ne

/-- A kept assertion is no cookie. -/
theorem Session.Guarded.keep {s : Session} (hs : s.Guarded) (posted : Option String) :
    (PostBinding.keep s posted).Guarded := by
  unfold PostBinding.keep
  split
  · refine ⟨hs.cookies, fun e he => ?_⟩
    rcases List.mem_append.mp he with he | he
    · exact hs.headers e (List.mem_filter.mp he).1
    · rw [List.mem_singleton.mp he]
  · exact hs

namespace Gateway

variable {g : Gateway} {w : Surroundings} {m : Mapping} {r : Request}

/-- What backends get in their `Cookie` fields: what the jar has for the path, and nothing else. -/
theorem cookies_of_mem_sent (hg : g.sessions.All Session.Guarded) {out : Request}
    (hout : out ∈ (g.handle w m r).sent) :
    (g.verdict w m r).session.Guarded ∧ out.headers.values .cookie =
      (((g.verdict w m r).session.cookies.headerFor r.target.path).map
        fun text => ⟨Bytes.ofText text⟩).toList := by
  have hfound : (g.found w r.headers).session.Guarded :=
    hg.resolve_session Session.guarded_fresh _ _ _
  have hleaves := verdict_leaves (g := g) (w := w) (m := m) (r := r)
  have hsession : (g.verdict w m r).session.Guarded := hleaves.session.guarded hfound
  have hworking : ∀ e ∈ (g.injected w m r).workingHeaders.entries, e.1 ≠ .cookie := by
    intro e he
    have hjar := HeaderJar.mem_working (hleaves.working e he)
    rw [hfound.headers e hjar]
    decide
  obtain ⟨-, -, hrequest⟩ := mem_handle_sent.mp hout
  obtain ⟨target, -, rfl⟩ := Outbound.request_eq_ok.mp hrequest
  refine ⟨hsession, ?_⟩
  rw [Outbound.headers_cookies hworking]
  exact congrArg Option.toList hsession.cookieField

/-- It can be read, and no control cookie is in it. -/
theorem cookie_of_mem_sent (hg : g.sessions.All Session.Guarded) {out : Request}
    (hout : out ∈ (g.handle w m r).sent) {value : HeaderValue}
    (hvalue : value ∈ out.headers.values .cookie) :
    ∃ text, value.text? = some text ∧
      ∀ p ∈ Cookie.split text, p.1 ≠ Command.cookieName := by
  obtain ⟨hsession, hcookies⟩ := cookies_of_mem_sent hg hout
  rw [hcookies, Option.mem_toList] at hvalue
  obtain ⟨text, htext, rfl⟩ := Option.map_eq_some_iff.mp hvalue
  obtain ⟨hchars, hsplit⟩ := hsession.headerFor htext
  exact ⟨text, HeaderValue.text?_ofText hchars, hsplit⟩

/-! ## What browsers get -/

/-- A cookie by which the gateway itself knows a browser again, or makes it forget. -/
def IsSessionCookie (g : Gateway) (value : HeaderValue) : Prop :=
  (∃ id, HeaderValue.ofText? (BrowserCookie.session g.cookieName id) = some value) ∨
    HeaderValue.ofText? (BrowserCookie.expired g.cookieName) = some value

theorem eq_of_ofText? {text : String} {value : HeaderValue}
    (h : HeaderValue.ofText? text = some value) : value = ⟨Bytes.ofText text⟩ := by
  unfold HeaderValue.ofText? HeaderValue.ofBytes? at h
  split at h
  · exact (Option.some.inj h).symm
  · cases h

/-- A token cookie is no control cookie. -/
theorem token_not_control {token : String} {value : HeaderValue}
    (h : HeaderValue.ofText? (BrowserCookie.token TokenExchange.jwtCookie token) = some value) :
    ¬value.IsControl := by
  have htext : BrowserCookie.token TokenExchange.jwtCookie token =
      "jwt=" ++ (token ++ "; Path=/") := by
    simp [BrowserCookie.token, TokenExchange.jwtCookie, String.append_assoc]
  have hchars : ∀ c ∈ "jwt=".toList, c.toNat < 128 := by simp
  have hname : Cookie.nameOf? value.latin1 = some "jwt".toList := by
    rw [eq_of_ofText? h, htext, HeaderValue.latin1_ofText_append hchars]
    exact @Cookie.nameOf?_append "jwt".toList (by simp) (by simp) _
  unfold HeaderValue.IsControl
  rw [hname]
  decide

theorem mem_due {id : String} {created loggedOut : Bool} {issuedJwt : Option String}
    {value : HeaderValue} (h : value ∈ g.due id created issuedJwt loggedOut)
    (hc : value.IsControl) : g.IsSessionCookie value := by
  unfold due at h
  rcases List.mem_append.mp h with h | h
  · obtain ⟨token, -, ht⟩ := Option.bind_eq_some_iff.mp (Option.mem_toList.mp h)
    exact absurd hc (token_not_control ht)
  · split at h
    · exact .inr (Option.mem_toList.mp h)
    · split at h
      · exact .inl ⟨id, Option.mem_toList.mp h⟩
      · cases h

/-- A backend's control cookie goes on exactly if it is no plain text and the answer can be
    relayed. -/
theorem mem_passed {sent : List Request} {value : HeaderValue} (hc : value.IsControl) :
    value ∈ passed w r sent ↔
      ∃ answer ∈ w.answers sent, value ∈ answer.headers.values .setCookie ∧
        value.text? = none ∧ ∃ response, relayOf w r answer = some (.ok response) := by
  unfold passed
  rw [List.mem_flatMap]
  refine exists_congr fun answer => and_congr_right fun _ => ?_
  have hplain : (!Harvest.isControl value) = true ↔ value.text? = none := by
    rw [Bool.not_eq_true', ← Bool.not_eq_true, Harvest.isControl_iff]
    simp [hc]
  rcases relayOf w r answer with _ | e | response
  · simp
  · simp
  · simp [List.mem_filter, hplain]

/-- The id of a request plays no part in what is passed on. -/
theorem passed_assign (w : Surroundings) (fresh : String) (r : Request) (sent : List Request) :
    passed w (RequestId.assign fresh r) sent = passed w r sent := by
  unfold passed
  simp only [relayOf_assign]

/-- An exchange without an answer passes nothing on. -/
theorem passed_of_unanswered (h : (g.handle w m r).response = none) :
    passed w r (g.handle w m r).sent = [] := by
  unfold passed
  rw [handle_sent]
  rw [handle_eq] at h
  rcases hs : g.served w m r with ⟨after, result, sent, events⟩
  rw [hs] at h
  rcases served_cases hs with
    ⟨hnone, -⟩ | ⟨answer, hone, -, ⟨he, -⟩ | ⟨e, -, rfl⟩ | ⟨response, -, rfl⟩⟩
  · rw [hnone]
    rfl
  · simp [hone, he]
  · cases h
  · cases h

end Gateway

namespace PostBinding

variable {g : Gateway} {w : Surroundings} {root : String} {r : Request}

/-- The SAML endpoint answers, and with no cookie but that of a new session. -/
theorem handle_setCookies {response : Response}
    (h : (handle g w root r).response = some response) :
    ∀ value ∈ response.headers.values .setCookie, g.IsSessionCookie value := by
  have hname : (g.sessionFor w r.headers).1.cookieName = g.cookieName := rfl
  have hlocation : ∀ location, ((Response.ofStatus .found).setHeader .location
      location).headers.values .setCookie = [] := fun location => rfl
  intro value hvalue
  unfold handle at h
  generalize g.sessionFor w r.headers = opened at h hname
  split at h
  · cases h
    cases hvalue
  · dsimp only at h
    cases h
    split at hvalue
    · cases hvalue
    · split at hvalue
      · rw [Response.addCookie_setCookies, hlocation, List.nil_append, Option.mem_toList] at hvalue
        refine .inl ⟨opened.2.1.id, ?_⟩
        rw [← hname]
        exact hvalue
      · cases hvalue

end PostBinding

namespace Server

variable {s : Server} {w : Surroundings} {r : Request}

/-- No session that is held ever has a control cookie in its jar. -/
theorem run_guarded (h : s.gateway.sessions.All Session.Guarded) (events : List ServerEvent) :
    (s.run events).gateway.sessions.All Session.Guarded := by
  refine run_all Session.guarded_fresh (fun _ _ _ ht hs => ht.guarded hs) ?_ h events
  intro t posted ht
  exact ht.keep posted

/-- What an answer passes on, and the cookies that the gateway adds. -/
theorem answer_cookies (s : Server) (w : Surroundings) (r : Request) :
    ∃ own, (s.answer w r).2.2.headers.values .setCookie =
        Gateway.passed w r (s.exchange w r).sent ++ own ∧
      ∀ value ∈ own, value.IsControl → s.gateway.IsSessionCookie value := by
  rw [answer_setCookies]
  rcases exchange_cases s w r with ⟨metrics, hx⟩ | ⟨root, hx⟩ | ⟨status, metrics, hx⟩
  · rw [hx]
    dsimp only
    rw [← Gateway.passed_assign]
    cases hr : (s.gateway.handle w (s.gateway.table.resolve r.target.path)
        (RequestId.assign w.freshRequest r)).response with
    | none =>
      refine ⟨[], ?_, fun value h => nomatch h⟩
      rw [Gateway.passed_of_unanswered hr]
      rfl
    | some response =>
      refine ⟨_, Gateway.handle_setCookies hr, fun value => Gateway.mem_due⟩
  · rw [hx, PostBinding.handle_sent]
    cases hr : (PostBinding.handle s.gateway w root
        (RequestId.assign w.freshRequest r)).response with
    | none => exact ⟨[], rfl, fun value h => nomatch h⟩
    | some response =>
      exact ⟨_, rfl, fun value h _ => PostBinding.handle_setCookies hr value h⟩
  · rw [hx]
    exact ⟨[], rfl, fun value h => nomatch h⟩

/-- The browser gets a control cookie of a backend exactly if it is no plain text and the answer can
    be relayed. -/
theorem control_mem_answer {value : HeaderValue} (hc : value.IsControl)
    (hown : ¬s.gateway.IsSessionCookie value) :
    value ∈ (s.answer w r).2.2.headers.values .setCookie ↔
      ∃ answer ∈ w.answers (s.exchange w r).sent, value ∈ answer.headers.values .setCookie ∧
        value.text? = none ∧ ∃ response, Gateway.relayOf w r answer = some (.ok response) := by
  obtain ⟨own, hcookies, hsession⟩ := answer_cookies s w r
  rw [hcookies, List.mem_append, ← Gateway.mem_passed hc]
  exact or_iff_left fun h => hown (hsession value h hc)

/-- What is sent in the course of a request. -/
theorem cookie_of_mem_sent (hs : s.gateway.sessions.All Session.Guarded) {out : Request}
    (hout : out ∈ (s.exchange w r).sent) {value : HeaderValue}
    (hvalue : value ∈ out.headers.values .cookie) :
    ∃ text, value.text? = some text ∧
      ∀ p ∈ Cookie.split text, p.1 ≠ Command.cookieName :=
  Gateway.cookie_of_mem_sent hs (handled_of_mem_sent hout) hvalue

end Server

/-- **When a control cookie leaks.**  A harvest passes one on exactly if it is no plain text, and
    never stores one.  After every run no jar has one, no backend gets one, and the browser gets
    those of a backend that are no plain text, if the answer can be relayed. -/
theorem control_cookie_leaks_iff (router : Router) (settings : Settings) (localPort : Nat)
    (events : List ServerEvent) :
    let s := (Server.new router settings localPort).run events
    (∀ session root values now,
      let harvest := Harvest.run session root values now
      ((∃ v ∈ harvest.2.forward, v.IsControl) ↔ ∃ v ∈ values, v.IsControl ∧ v.text? = none) ∧
      ∀ p ∈ harvest.1.cookies.pairs, p.1 = Command.cookieName → p ∈ session.cookies.pairs) ∧
    (s.gateway.sessions.All fun session =>
      ∀ p ∈ session.cookies.pairs, p.1 ≠ Command.cookieName) ∧
    ∀ w r,
      (∀ out ∈ (s.exchange w r).sent, ∀ v ∈ out.headers.values .cookie,
        ∃ text, v.text? = some text ∧ ∀ p ∈ Cookie.split text, p.1 ≠ Command.cookieName) ∧
      ∀ v, v.IsControl → ¬s.gateway.IsSessionCookie v →
        (v ∈ (s.answer w r).2.2.headers.values .setCookie ↔
          ∃ answer ∈ w.answers (s.exchange w r).sent, v ∈ answer.headers.values .setCookie ∧
            v.text? = none ∧ ∃ response, Gateway.relayOf w r answer = some (.ok response)) := by
  intro s
  have hguarded : s.gateway.sessions.All Session.Guarded :=
    Server.run_guarded (SessionStore.all_empty _ _) events
  refine ⟨fun session root values now => ⟨Harvest.leaks_iff _ _ _ _, ?_⟩, ?_, ?_⟩
  · intro p hp hname
    rcases (Session.harvested_run session root values now).cookies p hp with hp | hp
    · exact hp
    · exact absurd hname (Harvest.replayable_of_storable hp).name_ne
  · intro e he p hp
    exact ((hguarded e he).cookies p hp).name_ne
  · intro w r
    refine ⟨fun out hout v hv => Server.cookie_of_mem_sent hguarded hout hv, ?_⟩
    intro v hc hown
    exact Server.control_mem_answer hc hown

/-- A control cookie with a byte above the ASCII range goes on to the browser. -/
theorem control_cookie_leaks :
    ¬∀ (s : Session) (root : String) (values : List HeaderValue) (now : Instant),
      ∀ v ∈ (Harvest.run s root values now).2.forward, ¬v.IsControl := by
  intro h
  have hplain := h .fresh "/" [⟨Bytes.ofText "AL_CONTROL=é"⟩] 0
  have hleaks : ∃ v ∈ (Harvest.run .fresh "/"
      [⟨Bytes.ofText "AL_CONTROL=é"⟩] 0).2.forward, v.IsControl := by
    refine (Harvest.leaks_iff _ _ _ _).mpr ⟨_, List.mem_singleton_self _, ?_, ?_⟩
    · unfold HeaderValue.IsControl
      decide +kernel
    · decide +kernel
  obtain ⟨v, hv, hc⟩ := hleaks
  exact hplain v hv hc

end AccessGateway

import AccessGateway.Proofs.Encoding.FormText
import AccessGateway.Proofs.Federation.Envelope
import AccessGateway.Proofs.Gateway.Staying

/-!
# From a posted assertion to its exchange

An assertion that is posted to the SAML endpoint is kept in the session of the post.  The next
request of this session that asks for a token, and brings neither a token cookie that holds nor a
bearer token of its own, has the assertion exchanged.

## Results

* `Server.service?_binding`, `Server.step_posted` — what a post leaves.
* `Server.run_headers` — what is kept until the next post.
* `TokenExchange.calls_of_kept` — the provider is asked once, with the assertion that was kept.
* `posted_assertion_exchanged` — from the post to the form that the provider gets.
* `oversized_post_ignored` — a post whose body is too large is refused, whatever its query says.
-/

set_option autoImplicit false

namespace AccessGateway

/-- A value that was stored is the only one of its name in a working set. -/
theorem HeaderJar.values_working_store (jar : HeaderJar) (name : HeaderName)
    (value : HeaderValue) : (jar.store name value).working.values name = [value] := by
  unfold working store
  rw [List.foldl_append, List.foldl_cons, List.foldl_nil, Headers.values_insert, if_pos rfl]

namespace Server

variable {s : Server} {w : Surroundings} {r : Request} {id : String} {jar : HeaderJar}
  {events : List ServerEvent} {e : ServerEvent}

/-! ## Posts -/

/-- A request posts a text to the SAML endpoint, in its query or else in its body, and an assertion
    can be extracted from the text.  The body has to be readable in any case. -/
def Posts (s : Server) (r : Request) (posted assertion : String) : Prop :=
  ∃ root form, s.router.route r.method r.target.path = .binding root ∧
    PostBinding.form? r.body = some form ∧ PostBinding.posted? r.target form = some posted ∧
    PostBinding.Holds posted assertion

/-- If the request is one of the session under an id, it posts no assertion. -/
def BringsNone (id : String) (s : Server) : ServerEvent → Prop
  | .request w r => (s.gateway.found w r.headers).id = id →
      ∀ posted assertion, ¬s.Posts r posted assertion
  | .sweep _ => True

/-- How a post to the SAML endpoint is served. -/
theorem service?_binding {posted : Option String} :
    s.service? r = some (.binding posted) ↔
      ∃ root form, s.router.route r.method r.target.path = .binding root ∧
        PostBinding.form? r.body = some form ∧ PostBinding.posted? r.target form = posted := by
  unfold service?
  cases s.router.route r.method r.target.path with
  | dispatcher => cases r.check <;> simp
  | besideBinding => cases r.check <;> simp
  | nowhere => simp
  | binding root => cases PostBinding.form? r.body <;> simp

/-- A text that does not count leaves a session as it is. -/
theorem keep_of_not_posts (h : ∀ posted assertion, ¬s.Posts r posted assertion)
    {posted : Option String} (hservice : s.service? r = some (.binding posted)) (t : Session) :
    PostBinding.keep t posted = t := by
  obtain ⟨root, form, hroute, hform, rfl⟩ := service?_binding.mp hservice
  have hnone : (PostBinding.posted? r.target form).bind PostBinding.bearer? = none := by
    rw [Option.bind_eq_none_iff]
    intro posted hposted
    exact PostBinding.bearer?_eq_none.mpr fun assertion hholds =>
      h posted assertion ⟨root, form, hroute, hform, hposted, hholds⟩
  unfold PostBinding.keep
  rw [hnone]

/-- What a post leaves: the session has the assertion as its authorization. -/
theorem step_posted {posted assertion : String} (h : s.Posts r posted assertion) :
    (s.step (.request w r)).gateway.sessions.AllAt (s.gateway.found w r.headers).id
      (·.headers = (s.gateway.found w r.headers).session.headers.store .authorization
        ⟨Bytes.ofText (bearerMark ++ assertion)⟩) := by
  obtain ⟨root, form, hroute, hform, hposted, hholds⟩ := h
  have hservice : s.service? (RequestId.assign w.freshRequest r) =
      some (.binding (some posted)) := by
    rw [service?_assign]
    exact service?_binding.mpr ⟨root, form, hroute, hform, hposted⟩
  rw [step_service, hservice]
  refine SessionStore.allAt_save ?_
  unfold PostBinding.keep
  rw [Option.bind_some, PostBinding.bearer?_of_holds hholds]

/-- **One event**: the session keeps its header fields, unless it is ended or gets another
    assertion. -/
theorem step_headers (h : s.gateway.sessions.AllAt id (·.headers = jar))
    (hcontinues : s.Continues id e) (hnone : s.BringsNone id e) :
    (s.step e).gateway.sessions.AllAt id (·.headers = jar) := by
  refine step_allAt h hcontinues ?_
  rintro w r rfl hid hfound
  constructor
  · intro m hm
    rw [finished_headers hm (hcontinues.2 hid)]
    exact hfound
  · intro posted hposted
    rw [service?_assign] at hposted
    rw [keep_of_not_posts (hnone hid) hposted]
    exact hfound

/-- **A whole row of events**. -/
theorem run_headers (h : s.gateway.sessions.AllAt id (·.headers = jar))
    (hall : s.Throughout (fun t e => t.Continues id e ∧ t.BringsNone id e) events) :
    (s.run events).gateway.sessions.AllAt id (·.headers = jar) := by
  unfold run
  induction events generalizing s with
  | nil => exact h
  | cons e events ih =>
    obtain ⟨⟨hcontinues, hnone⟩, hrest⟩ := hall
    exact ih (step_headers h hcontinues hnone) hrest

/-- A post whose body cannot be read changes nothing. -/
theorem step_unread {root : String} (hroute : s.router.route r.method r.target.path = .binding root)
    (hform : PostBinding.form? r.body = none) : s.step (.request w r) = s := by
  have hgateway : (s.step (.request w r)).gateway = s.gateway := by
    rw [step_service, service?_assign]
    unfold service?
    rw [hroute, hform]
    rfl
  have hrouter : (s.step (.request w r)).router = s.router := by
    unfold step answer
    dsimp only
  generalize s.step (.request w r) = after at hgateway hrouter ⊢
  obtain ⟨router, gateway⟩ := after
  dsimp only at hgateway hrouter
  rw [hgateway, hrouter]

/-- A post that does not count leaves the session as it is. -/
theorem step_not_posted {root : String}
    (hroute : s.router.route r.method r.target.path = .binding root)
    (h : ∀ posted assertion, ¬s.Posts r posted assertion) :
    s.step (.request w r) = s ∨
    ∃ held, (s.step (.request w r)).gateway.sessions.find? (s.gateway.found w r.headers).id =
        some held ∧ held.session = (s.gateway.found w r.headers).session := by
  cases hform : PostBinding.form? r.body with
  | none =>
    left
    exact step_unread hroute hform
  | some form =>
    right
    have hservice : s.service? r = some (.binding (PostBinding.posted? r.target form)) :=
      service?_binding.mpr ⟨root, form, hroute, hform, rfl⟩
    have hheld : ((s.gateway.opened w r).find? (s.gateway.found w r.headers).id).isSome = true :=
      SessionStore.find?_resolve _ _ _ _
    obtain ⟨held, hfind⟩ := Option.isSome_iff_exists.mp hheld
    rw [step_service, service?_assign, hservice]
    dsimp only
    rw [keep_of_not_posts h hservice]
    refine ⟨{ held with session := (s.gateway.found w r.headers).session }, ?_, rfl⟩
    show ((s.gateway.opened w r).save _ _).find? _ = _
    rw [SessionStore.find?_save, hfind]
    rfl

end Server

/-! ## The exchange -/

/-- A request of a session that keeps an assertion asks the provider for a token in exchange for it,
    if its token cookie fails and it brings no bearer token. -/
theorem TokenExchange.calls_of_kept {m : Mapping} {client : ExchangeClient}
    {peers : IdentityPeers} {r : AccessRequest} {s : Session} {posted assertion : String}
    {jar : HeaderJar} (hflow : m.flow = .tokenExchange client)
    (hkept : s.headers = jar.store .authorization ⟨Bytes.ofText (bearerMark ++ assertion)⟩)
    (hholds : PostBinding.Holds posted assertion)
    (hcookie : CookieFails client peers r.headers)
    (hbearer : ∀ token, ¬r.headers.Bears token) :
    (m.authorize peers r s (.ofSession s)).calls = [call client assertion] := by
  have hfirst : s.headers.working.first? .authorization =
      some ⟨Bytes.ofText (bearerMark ++ assertion)⟩ := by
    rw [hkept, Headers.first?, HeaderJar.values_working_store]
    rfl
  have hbears : s.headers.working.Bears assertion := by
    rw [← bearerOf?_eq_some, bearerOf?, hfirst]
    exact PostBinding.bearerToken?_of_holds hholds
  have hends : Ends m client peers r s (.ofSession s) (m.authorize peers r s (.ofSession s)) := by
    unfold Mapping.authorize
    rw [hflow]
    exact authorize_ends
  exact hends.calls_of_found hcookie (.inr ⟨hbearer, hbears⟩)

/-- The client that the settings of a mapping with token exchange describe. -/
def MappingSettings.client (m : MappingSettings) : ExchangeClient :=
  { url := m.deniedAccessUrl.getD ""
    clientId := (m.option? clientId).getD ""
    clientSecret := (m.option? clientSecret).getD ""
    subjectIssuer := (m.option? subjectIssuer).getD ""
    certificateUrl := (m.option? certificateUrl).filter fun u => Text.trim u.toList ≠ [] }

theorem Mapping.flow_ofSettings {m : MappingSettings} (h : m.flow = .tokenExchange) :
    (Mapping.ofSettings m).flow = .tokenExchange m.client := by
  show Flow.ofSettings m = _
  unfold Flow.ofSettings
  rw [h]
  rfl

/-- A request of the session under an id on which a mapping with token exchange decides, whose token
    cookie fails, and which brings no bearer token of its own. -/
structure Server.AsksForToken (s : Server) (id : String) (m : MappingSettings) (w : Surroundings)
    (r : Request) : Prop where
  found : (s.gateway.found w r.headers).id = id
  fresh : w.freshSession ≠ id
  service : s.service? r = some (.mapping (.ofSettings m))
  flow : m.flow = .tokenExchange
  cookie : TokenExchange.CookieFails m.client w.identity r.headers
  bearer : ∀ token, ¬r.headers.Bears token

/-- What a request that asks for a token sends to its provider. -/
theorem Server.AsksForToken.calls {s : Server} {id : String} {m : MappingSettings}
    {w : Surroundings} {r : Request} {posted assertion : String} {jar : HeaderJar}
    (h : s.AsksForToken id m w r) (hholds : PostBinding.Holds posted assertion)
    (hkept : s.gateway.sessions.AllAt id
      (·.headers = jar.store .authorization ⟨Bytes.ofText (bearerMark ++ assertion)⟩)) :
    (s.exchange w r).calls = [TokenExchange.call m.client assertion] := by
  have hservice := h.service
  rw [← service?_assign s w.freshRequest r] at hservice
  obtain ⟨metrics, hx⟩ := exchange_mapping hservice
  have hsession : (s.gateway.found w r.headers).session.headers =
      jar.store .authorization ⟨Bytes.ofText (bearerMark ++ assertion)⟩ :=
    hkept.found h.fresh h.found
  rw [hx]
  dsimp only
  rw [Gateway.handle_calls]
  unfold Gateway.verdict
  rw [Gateway.found_assign]
  refine TokenExchange.calls_of_kept (Mapping.flow_ofSettings h.flow) hsession hholds ?_ ?_
  · intro token url hcookie hurl
    rw [RequestId.assign_requestCookie?] at hcookie
    exact h.cookie token url hcookie hurl
  · have hvalues := RequestId.assign_values w.freshRequest r
      (show HeaderName.authorization ≠ .requestId by decide)
    intro token hbears
    refine h.bearer token ?_
    unfold Headers.Bears Headers.first? at hbears ⊢
    rwa [hvalues] at hbears

/-- **From a posted assertion to its exchange.**  A post from whose text an assertion can be
    extracted, in the query or else in the body, leaves it in its session.  Until the session is
    ended or gets another one, every request of it that asks for a token, and brings none of its
    own, sends the provider of the mapping one form, and in it the provider reads exactly the
    assertion and the configured values, whatever they are.  As nothing is asked of what the session
    kept before, a later post takes the place of an earlier one.  A post from which no assertion is
    taken leaves the session as it is.  Any text is found again in a form that it was written
    into. -/
theorem posted_assertion_exchanged (s : Server) (w : Surroundings) (r : Request) :
    let id := (s.gateway.found w r.headers).id
    let after := s.step (.request w r)
    (∀ posted assertion, s.Posts r posted assertion →
      ∀ between, after.Throughout (fun t e => t.Continues id e ∧ t.BringsNone id e) between →
      ∀ m w' r', (after.run between).AsksForToken id m w' r' →
      ∃ call, ((after.run between).exchange w' r').calls = [call] ∧
        call.url = m.deniedAccessUrl.getD "" ∧
        Form.parse (Bytes.ofText call.body) =
          [("grant_type", "urn:ietf:params:oauth:grant-type:token-exchange"),
            ("subject_token_type", "urn:ietf:params:oauth:token-type:saml2"),
            ("subject_token", assertion),
            ("subject_issuer", (m.option? MappingSettings.subjectIssuer).getD ""),
            ("client_id", (m.option? MappingSettings.clientId).getD ""),
            ("client_secret", (m.option? MappingSettings.clientSecret).getD "")]) ∧
    (∀ root, s.router.route r.method r.target.path = .binding root →
      (∀ posted assertion, ¬s.Posts r posted assertion) →
      after = s ∨
      ∃ held, after.gateway.sessions.find? id = some held ∧
        held.session = (s.gateway.found w r.headers).session) ∧
    ∀ name fields, Form.lookup? name (Bytes.ofText (Form.write fields)) =
      (fields.find? (·.1 = name)).map (·.2) := by
  intro id after
  refine ⟨?_, fun root hroute hnone => Server.step_not_posted hroute hnone, Form.lookup?_write⟩
  intro posted assertion hposts between hbetween m w' r' hasks
  have hkept := Server.run_headers (Server.step_posted hposts) hbetween
  obtain ⟨_, _, _, _, _, hholds⟩ := hposts
  refine ⟨_, hasks.calls hholds hkept, rfl, ?_⟩
  exact Form.parse_write _

/-! ## One assertion

A browser opens a session at a part of the site that wants a token.  Its provider has it post an
assertion, and it comes back. -/

namespace PostedAssertion

/-- One mapping with token exchange. -/
def mapping : MappingSettings :=
  { name := "portal", contextRoot := "/app", flow := .tokenExchange
    deniedAccessUrl := some "http://idp/token", backend := { host := "backend" }
    options := [(MappingSettings.clientId, "portal & co"),
      (MappingSettings.clientSecret, "a+b=c")] }

/-- What happens around each request: no provider answers. -/
def surroundings (fresh : String) : Surroundings :=
  { arrival := 0, decided := 0, answered := 0, date := 0
    freshSession := fresh, freshRequest := "q"
    identity := ⟨fun _ => .failure "connection refused", fun _ => some false⟩
    backend := fun _ => .abandoned }

/-- A request to the part of the site; it has the session's id, once there is one. -/
def visit (headers : Headers) : Request := ⟨.get, ⟨none, "", "/app/x"⟩, .http11, headers, .empty⟩

/-- The browser's cookie. -/
def cookie : Headers := ⟨[(.cookie, ⟨Bytes.ofText "gateway.session=s"⟩)]⟩

/-- An empty assertion, in base64. -/
def assertion : String := "PHNhbWw6QXNzZXJ0aW9uIElEPSJhMSI+PC9zYW1sOkFzc2VydGlvbj4="

/-- The post, with the assertion in its query. -/
def post (body : Body) : Request :=
  { method := .post, version := .http11, headers := cookie, body
    target := ⟨none, "", "/saml/app/x?SAMLResponse=" ++
      "PHNhbWw6QXNzZXJ0aW9uIElEPSJhMSI%2BPC9zYW1sOkFzc2VydGlvbj4%3D"⟩ }

/-- The server after the session was opened. -/
def server : Server :=
  (Server.new ⟨some ("/saml", "/saml".toList.map .literal)⟩ { mappings := [mapping] } 8080).run
    [.request (surroundings "s") (visit .empty)]

/-- A body that is larger by one byte than what is read. -/
def tooLarge : Body := .ofBytes (List.replicate (PostBinding.maxFormBytes + 1) 97)

theorem holds : PostBinding.Holds assertion assertion := by
  unfold PostBinding.Holds
  decide +kernel

theorem asksForToken {t : Server}
    (hfound : (t.gateway.found (surroundings "u") (visit cookie).headers).id = "s")
    (hservice : t.service? (visit cookie) = some (.mapping (.ofSettings mapping))) :
    t.AsksForToken "s" mapping (surroundings "u") (visit cookie) := by
  refine ⟨hfound, by decide, hservice, rfl, ?_, ?_⟩
  · intro token url _ hurl
    cases hurl
  · rintro token ⟨value, rest, hfirst, -⟩
    cases hfirst

end PostedAssertion

/-- The provider reads the assertion and the configured values, separators and all. -/
theorem posted_assertion_exchanged_portal :
    ∃ call, ((PostedAssertion.server.step (.request (PostedAssertion.surroundings "t")
        (PostedAssertion.post .empty))).exchange (PostedAssertion.surroundings "u")
        (PostedAssertion.visit PostedAssertion.cookie)).calls = [call] ∧
      call.url = "http://idp/token" ∧
      Form.parse (Bytes.ofText call.body) =
        [("grant_type", "urn:ietf:params:oauth:grant-type:token-exchange"),
          ("subject_token_type", "urn:ietf:params:oauth:token-type:saml2"),
          ("subject_token", PostedAssertion.assertion), ("subject_issuer", ""),
          ("client_id", "portal & co"), ("client_secret", "a+b=c")] := by
  have hid : (PostedAssertion.server.gateway.found (PostedAssertion.surroundings "t")
      (PostedAssertion.post .empty).headers).id = "s" := by
    decide +kernel
  have hposts : PostedAssertion.server.Posts (PostedAssertion.post .empty)
      PostedAssertion.assertion PostedAssertion.assertion :=
    ⟨"/saml", [], by decide +kernel, by decide +kernel, by decide +kernel, PostedAssertion.holds⟩
  obtain ⟨hexchanged, -, -⟩ := posted_assertion_exchanged PostedAssertion.server
    (PostedAssertion.surroundings "t") (PostedAssertion.post .empty)
  refine hexchanged _ _ hposts [] trivial PostedAssertion.mapping _ _ ?_
  rw [hid]
  exact PostedAssertion.asksForToken (by decide +kernel) (by decide +kernel)

/-- An assertion in the query does not count if the body is too large: the post is refused, and the
    provider is not asked later. -/
theorem oversized_post_ignored :
    ¬∀ (s : Server) (w : Surroundings) (r : Request) (root posted assertion : String),
      s.router.route r.method r.target.path = .binding root →
      (r.target.query?.bind fun query =>
        Form.lookup? PostBinding.parameter (Bytes.ofText query)) = some posted →
      PostBinding.Holds posted assertion →
      ∀ m w' r', (s.step (.request w r)).AsksForToken (s.gateway.found w r.headers).id m w' r' →
        ((s.step (.request w r)).exchange w' r').calls =
          [TokenExchange.call m.client assertion] := by
  intro h
  have hroute : PostedAssertion.server.router.route
      (PostedAssertion.post PostedAssertion.tooLarge).method
      (PostedAssertion.post PostedAssertion.tooLarge).target.path = .binding "/saml" := by
    decide +kernel
  have hform : PostBinding.form? (PostedAssertion.post PostedAssertion.tooLarge).body = none := by
    show PostBinding.form? (Body.ofBytes _) = none
    unfold PostBinding.form? Body.collected
    rw [Body.content_ofBytes]
    dsimp only [Body.ofBytes]
    rw [List.length_replicate, if_neg (by decide)]
  have hunread := @Server.step_unread PostedAssertion.server (PostedAssertion.surroundings "t")
    _ _ hroute hform
  have hid : (PostedAssertion.server.gateway.found (PostedAssertion.surroundings "t")
      (PostedAssertion.post PostedAssertion.tooLarge).headers).id = "s" := by
    decide +kernel
  have hasked := h PostedAssertion.server (PostedAssertion.surroundings "t")
    (PostedAssertion.post PostedAssertion.tooLarge) "/saml" PostedAssertion.assertion
    PostedAssertion.assertion hroute (by decide +kernel) PostedAssertion.holds
    PostedAssertion.mapping (PostedAssertion.surroundings "u")
    (PostedAssertion.visit PostedAssertion.cookie)
  rw [hunread, hid] at hasked
  have hcalls := hasked (PostedAssertion.asksForToken (by decide +kernel) (by decide +kernel))
  have hnone : (PostedAssertion.server.exchange (PostedAssertion.surroundings "u")
      (PostedAssertion.visit PostedAssertion.cookie)).calls = [] := by
    decide +kernel
  rw [hnone] at hcalls
  cases hcalls

end AccessGateway

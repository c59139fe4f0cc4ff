import AccessGateway.Proofs.Gateway.Secrecy

/-!
# Cookies of the browser stay unseen

The gateway looks a few cookies up by their names and copies none of the fields that they stand in.
So two requests that differ in their cookies alone, but not in what is found under those names, are
the same to everyone: to identity providers, to backends, to the state of the gateway and to the
browser.

## Results

* `Headers.Indistinct` — fields that the gateway cannot tell apart.
* `Outbound.headers_indistinct`, `Mapping.authorize_indistinct`, `Gateway.handle_indistinct`,
  `Server.answer_indistinct` — each part of the gateway does the same with them.
* `browser_cookies_unseen` — all of it, after every run, with the cookies that backends do get.
-/

set_option autoImplicit false

namespace AccessGateway

/-! ## Fields that cannot be told apart -/

/-- The same fields but for cookies, and the same cookies under the names that are looked up: that
    of the session, that of the token, that of the application's token if there is one.  Of the mark
    that the portal sets, only whether it is there. -/
structure Headers.Indistinct (cookieName : String) (proxy : ProxySettings) (h h' : Headers) :
    Prop where
  others : h.erase .cookie = h'.erase .cookie
  session : h.requestCookie? cookieName = h'.requestCookie? cookieName
  token : h.requestCookie? TokenExchange.jwtCookie = h'.requestCookie? TokenExchange.jwtCookie
  application : ∀ name, proxy.applicationJwtCookie = some name →
    h.requestCookie? name = h'.requestCookie? name
  level : (h.requestCookie? Outbound.authenticationLevelCookie).isSome =
    (h'.requestCookie? Outbound.authenticationLevelCookie).isSome

namespace Headers

theorem erase_insert (h : Headers) {name other : HeaderName} (hne : name ≠ other)
    (value : HeaderValue) :
    (h.insert name value).erase other = (h.erase other).insert name value := by
  simp [insert, erase, append, filterNames, List.filter_append, List.filter_filter, hne,
    Bool.and_comm]

theorem filterNames_erase (h : Headers) {keep : HeaderName → Bool} {name : HeaderName}
    (hkeep : keep name = false) : (h.erase name).filterNames keep = h.filterNames keep := by
  unfold erase filterNames
  rw [List.filter_filter]
  refine congrArg Headers.mk (List.filter_congr fun e _ => ?_)
  by_cases he : e.1 = name
  · simp [he, hkeep]
  · simp [he]

namespace Indistinct

variable {cookieName : String} {proxy : ProxySettings} {h h' : Headers}
  (hsame : h.Indistinct cookieName proxy h')

include hsame

theorem values {name : HeaderName} (hne : name ≠ .cookie) : h.values name = h'.values name := by
  have herase : (h.erase .cookie).values name = (h'.erase .cookie).values name := by
    rw [hsame.others]
  rwa [values_erase, values_erase, if_neg hne, if_neg hne] at herase

theorem first? {name : HeaderName} (hne : name ≠ .cookie) : h.first? name = h'.first? name :=
  congrArg List.head? (hsame.values hne)

theorem filterNames {keep : HeaderName → Bool} (hkeep : keep .cookie = false) :
    h.filterNames keep = h'.filterNames keep := by
  rw [← filterNames_erase h hkeep, hsame.others, filterNames_erase h' hkeep]

/-- A field that is no cookie may be put into both. -/
theorem insert {name : HeaderName} (hne : name ≠ .cookie) (value : HeaderValue) :
    (h.insert name value).Indistinct cookieName proxy (h'.insert name value) := by
  have hcookies : ∀ h : Headers, (h.insert name value).values .cookie = h.values .cookie := by
    intro h
    rw [values_insert, if_neg hne]
  have hlookup : ∀ (h : Headers) (cookie : String),
      (h.insert name value).requestCookie? cookie = h.requestCookie? cookie := fun h =>
    requestCookie?_congr (hcookies h)
  refine ⟨?_, ?_, ?_, fun application happlication => ?_, ?_⟩
  · rw [erase_insert _ hne, erase_insert _ hne, hsame.others]
  · rw [hlookup, hlookup, hsame.session]
  · rw [hlookup, hlookup, hsame.token]
  · rw [hlookup, hlookup, hsame.application application happlication]
  · rw [hlookup, hlookup, hsame.level]

end Indistinct
end Headers

/-! ## Parts that read the fields of a request -/

section Parts

variable {cookieName : String} {proxy : ProxySettings} {h h' : Headers}
  (hsame : h.Indistinct cookieName proxy h')

include hsame

/-- A backend gets the same fields. -/
theorem Outbound.headers_indistinct (injection : Injection) (localPort : Nat) :
    headers h injection proxy localPort = headers h' injection proxy localPort := by
  have hcopied : h.filterNames isCopied = h'.filterNames isCopied := hsame.filterNames rfl
  have htoken : token? h injection proxy = token? h' injection proxy := by
    unfold token?
    cases hname : proxy.applicationJwtCookie with
    | none => rfl
    | some name => rw [Option.bind_some, Option.bind_some, hsame.application name hname]
  have hhost : forwardedHost? h proxy = forwardedHost? h' proxy := by
    unfold forwardedHost?
    rw [hsame.first? (by decide)]
  have hknown : isKnown h injection = isKnown h' injection := by
    unfold isKnown
    rw [hsame.level]
  unfold headers
  rw [hcopied, htoken, hhost, hknown]

/-- A provider gets the same fields, if it may not see cookies. -/
theorem OneShot.forwardedHeaders_indistinct {names : List HeaderName}
    (hnames : HeaderName.cookie ∉ names) :
    forwardedHeaders names h = forwardedHeaders names h' := by
  unfold forwardedHeaders
  refine congrArg Headers.mk ?_
  rw [List.flatMap_def, List.flatMap_def]
  refine congrArg List.flatten (List.map_congr_left fun name hname => ?_)
  rw [hsame.values fun heq : name = .cookie => hnames (heq ▸ hname)]

theorem TokenExchange.check?_indistinct (client : ExchangeClient) :
    check? client h = check? client h' := by
  unfold check?
  rw [hsame.token]

theorem TokenExchange.assertion?_indistinct (working : Headers) :
    assertion? h working = assertion? h' working := by
  unfold assertion? bearerOf?
  rw [hsame.first? (by decide)]

/-- A mapping decides the same, and has the same conversations on the way. -/
theorem Mapping.authorize_indistinct {m : Mapping} (hlist : HeaderName.cookie ∉ m.headers)
    (peers : IdentityPeers) (path : String) (now : Instant) (s : Session) (st : RequestState) :
    m.authorize peers ⟨h, path, now⟩ s st = m.authorize peers ⟨h', path, now⟩ s st := by
  unfold authorize
  cases m.flow with
  | unauthorized => rfl
  | forbidden => rfl
  | redirect url => rfl
  | oneShot url =>
    dsimp only
    unfold OneShot.authorize
    rw [OneShot.forwardedHeaders_indistinct hsame hlist]
  | tokenExchange client =>
    dsimp only
    unfold TokenExchange.authorize TokenExchange.exchange
    rw [TokenExchange.check?_indistinct hsame, TokenExchange.assertion?_indistinct hsame]
  | denyAll => rfl

end Parts

/-! ## The gateway -/

section Requests

variable {r : Request} {h' : Headers}

theorem Request.check_indistinct {cookieName : String} {proxy : ProxySettings}
    (hsame : r.headers.Indistinct cookieName proxy h') :
    Request.check { r with headers := h' } = r.check := by
  have hcoded : h'.first? .transferEncoding = r.headers.first? .transferEncoding :=
    (hsame.first? (by decide)).symm
  unfold Request.check
  rw [hcoded]

namespace Gateway

/-- A backend's answer is delivered without a look at the fields of the request. -/
theorem deliver_with {g : Gateway} {w : Surroundings} (m : Mapping) (id : String) (s : Session)
    (answer : Response) :
    g.deliver w m id s { r with headers := h' } answer = g.deliver w m id s r answer := rfl

variable {g : Gateway} {w : Surroundings} (hsame : r.headers.Indistinct g.cookieName g.proxy h')

include hsame

theorem sessionFor_indistinct : g.sessionFor w h' = g.sessionFor w r.headers := by
  unfold sessionFor
  rw [hsame.session]

/-- The backend's part is the same. -/
theorem forward_indistinct (m : Mapping) (id : String) (s : Session) (injection : Injection) :
    g.forward w m id s { r with headers := h' } injection = g.forward w m id s r injection := by
  have hrequest : Outbound.request m.backend { r with headers := h' } injection g.proxy
      g.localPort = Outbound.request m.backend r injection g.proxy g.localPort := by
    unfold Outbound.request
    rw [Outbound.headers_indistinct hsame]
  unfold forward
  rw [hrequest]
  simp only [deliver_with]

theorem verdict_indistinct {m : Mapping} (hlist : HeaderName.cookie ∉ m.headers) :
    g.verdict w m { r with headers := h' } = g.verdict w m r := by
  unfold verdict found
  rw [sessionFor_indistinct hsame, Mapping.authorize_indistinct hsame hlist]

theorem served_indistinct {m : Mapping} (hlist : HeaderName.cookie ∉ m.headers) :
    g.served w m { r with headers := h' } = g.served w m r := by
  have hverdict := verdict_indistinct (w := w) hsame hlist
  have hentered : g.entered w m { r with headers := h' } = g.entered w m r := by
    unfold entered found
    rw [sessionFor_indistinct hsame, hverdict]
  have hfound : g.found w h' = g.found w r.headers := by
    unfold found
    rw [sessionFor_indistinct hsame]
  have hsame' : r.headers.Indistinct (g.entered w m r).cookieName (g.entered w m r).proxy h' :=
    hsame
  unfold served
  rw [hverdict, hentered, hfound]
  dsimp only
  simp only [forward_indistinct hsame']

/-- The whole exchange under a mapping is the same. -/
theorem handle_indistinct {m : Mapping} (hlist : HeaderName.cookie ∉ m.headers) :
    g.handle w m { r with headers := h' } = g.handle w m r := by
  rw [handle_eq, handle_eq, served_indistinct hsame hlist]
  unfold conclude found
  rw [sessionFor_indistinct hsame, verdict_indistinct hsame hlist]

theorem dispatch_indistinct
    (hlist : HeaderName.cookie ∉ (g.table.resolve r.target.path).headers) :
    g.dispatch w { r with headers := h' } = g.dispatch w r := by
  unfold dispatch
  rw [Request.check_indistinct hsame]
  dsimp only
  rw [handle_indistinct hsame hlist]

end Gateway

/-- So is a post to the SAML endpoint. -/
theorem PostBinding.handle_indistinct {g : Gateway} {w : Surroundings} (root : String)
    (hsame : r.headers.Indistinct g.cookieName g.proxy h') :
    handle g w root { r with headers := h' } = handle g w root r := by
  unfold handle
  rw [Gateway.sessionFor_indistinct hsame]

/-! ## The server -/

namespace RequestId

/-- Both requests get the same id, or have it already. -/
theorem assign_indistinct {cookieName : String} {proxy : ProxySettings} (fresh : String)
    (hsame : r.headers.Indistinct cookieName proxy h') :
    (assign fresh r).headers.Indistinct cookieName proxy
      (assign fresh { r with headers := h' }).headers := by
  have hhas : h'.has .requestId = r.headers.has .requestId := by
    unfold Headers.has
    rw [hsame.values (by decide)]
  unfold assign
  rw [hhas]
  split
  · exact hsame
  · cases HeaderValue.ofText? fresh with
    | none => exact hsame
    | some value => exact hsame.insert (by decide) value

theorem assign_with (fresh : String) :
    assign fresh { r with headers := h' } =
      { assign fresh r with headers := (assign fresh { r with headers := h' }).headers } := by
  unfold assign
  split <;> split <;> rfl

theorem echo_indistinct {cookieName : String} {proxy : ProxySettings} {h : Headers}
    (hsame : h.Indistinct cookieName proxy h') (response : Response) :
    echo h' response = echo h response := by
  have hid : h'.first? .requestId = h.first? .requestId := (hsame.first? (by decide)).symm
  unfold echo
  rw [hid]

end RequestId

/-- A server does the same with both requests, and is the same afterwards. -/
theorem Server.answer_indistinct {s : Server} {w : Surroundings}
    (hsame : r.headers.Indistinct s.gateway.cookieName s.gateway.proxy h')
    (hlist : HeaderName.cookie ∉ (s.gateway.table.resolve r.target.path).headers) :
    s.answer w { r with headers := h' } = s.answer w r := by
  have hassigned := RequestId.assign_indistinct w.freshRequest hsame
  rw [← RequestId.assign_target w.freshRequest r] at hlist
  unfold answer
  rw [RequestId.assign_with]
  generalize (RequestId.assign w.freshRequest { r with headers := h' }).headers = k at hassigned ⊢
  generalize RequestId.assign w.freshRequest r = q at hassigned hlist ⊢
  have hbinding := fun root => PostBinding.handle_indistinct (w := w) root hassigned
  dsimp only
  rw [Gateway.dispatch_indistinct hassigned hlist]
  simp only [hbinding, RequestId.echo_indistinct hassigned]

end Requests

/-- **The cookies of a browser stay unseen.**  After every run, take two requests that differ in
    cookies alone, and in none that the gateway looks up, under a mapping that lets no provider see
    cookies.  The server does the same with both: it posts the same forms, verifies the same tokens,
    sends the same requests to backends, is in the same state afterwards and gives the same answer.
    What a backend gets in its `Cookie` field is what the jar of the session has for the path, and
    nothing else. -/
theorem browser_cookies_unseen (router : Router) (settings : Settings) (localPort : Nat)
    (events : List ServerEvent) (w : Surroundings) (r : Request) :
    let s := (Server.new router settings localPort).run events
    let m := (MappingTable.ofSettings settings.mappings).resolve r.target.path
    (∀ headers,
      r.headers.Indistinct settings.session.cookieName settings.proxy headers →
      HeaderName.cookie ∉ m.headers →
      s.answer w { r with headers } = s.answer w r) ∧
    ∀ out ∈ (s.exchange w r).sent, out.headers.values .cookie =
      (((s.gateway.verdict w m (RequestId.assign w.freshRequest r)).session.cookies.headerFor
        r.target.path).map fun text => ⟨Bytes.ofText text⟩).toList := by
  intro s m
  have hsetup := Server.run_setup (Server.new router settings localPort) events
  have htable : s.gateway.table = .ofSettings settings.mappings := congrArg (·.1) hsetup
  have hproxy : s.gateway.proxy = settings.proxy := congrArg (·.2.1) hsetup
  have hname : s.gateway.cookieName = settings.session.cookieName := congrArg (·.2.2.1) hsetup
  constructor
  · intro headers hsame hlist
    refine Server.answer_indistinct ?_ ?_
    · rw [hname, hproxy]
      exact hsame
    · rw [htable]
      exact hlist
  · intro out hout
    have hguarded : s.gateway.sessions.All Session.Guarded :=
      Server.run_guarded (SessionStore.all_empty _ _) events
    have hcookies := (Gateway.cookies_of_mem_sent hguarded (Server.handled_of_mem_sent hout)).2
    rw [htable, RequestId.assign_target] at hcookies
    exact hcookies

/-! ## A theme -/

namespace Themed

/-- One mapping, open to everyone. -/
def settings : Settings :=
  { mappings := [{ name := "app", contextRoot := "/app", backend := { host := "backend" } }] }

/-- A backend that answers with a cookie of its own. -/
def surroundings : Surroundings :=
  { arrival := 0, decided := 0, answered := 0, date := 0
    freshSession := "s", freshRequest := "q"
    identity := ⟨fun _ => .outOfTime, fun _ => some false⟩
    backend := fun _ => .value
      { status := .ok, reason := none, body := .empty, streamed := false
        headers := ⟨[(.setCookie, ⟨Bytes.ofText "seen=1"⟩)]⟩ } }

/-- A request with cookies. -/
def request (cookies : String) : Request :=
  ⟨.get, ⟨none, "", "/app/x"⟩, .http11, ⟨[(.cookie, ⟨Bytes.ofText cookies⟩)]⟩, .empty⟩

/-- The server, which the browser came to once. -/
def server : Server :=
  (Server.new ⟨none⟩ settings 8080).run [.request surroundings (request "")]

end Themed

/-- A browser that comes back with another theme gets the same answer, and the backend gets the
    cookie of the jar both times. -/
theorem browser_cookies_unseen_theme :
    Themed.request "gateway.session=s; theme=dark" ≠ Themed.request "gateway.session=s; theme" ∧
    Themed.server.answer Themed.surroundings (Themed.request "gateway.session=s; theme") =
      Themed.server.answer Themed.surroundings
        (Themed.request "gateway.session=s; theme=dark") ∧
    (Themed.server.exchange Themed.surroundings
      (Themed.request "gateway.session=s; theme=dark")).sent.map (·.headers.values .cookie) =
        [[⟨Bytes.ofText "seen=1"⟩]] := by
  have hunseen := browser_cookies_unseen ⟨none⟩ Themed.settings 8080
    [.request Themed.surroundings (Themed.request "")] Themed.surroundings
    (Themed.request "gateway.session=s; theme=dark")
  have hsame : (Themed.request "gateway.session=s; theme=dark").headers.Indistinct
      Themed.settings.session.cookieName Themed.settings.proxy
      (Themed.request "gateway.session=s; theme").headers := by
    refine ⟨?_, ?_, ?_, fun name hname => ?_, ?_⟩
    · decide +kernel
    · decide +kernel
    · decide +kernel
    · cases hname
    · decide +kernel
  have hlist : HeaderName.cookie ∉ ((MappingTable.ofSettings Themed.settings.mappings).resolve
      (Themed.request "gateway.session=s; theme=dark").target.path).headers := by
    decide +kernel
  have hanswer := hunseen.1 (Themed.request "gateway.session=s; theme").headers hsame hlist
  refine ⟨?_, ?_, ?_⟩
  · decide +kernel
  · exact hanswer
  · decide +kernel

end AccessGateway

import AccessGateway.Access.Mapping
import AccessGateway.Federation.Provider
import AccessGateway.Federation.Verifier
import AccessGateway.Gateway.Error
import AccessGateway.Relay.Outbound
import AccessGateway.Session.Harvest

/-!
# Authorization

A mapping decides whether a request may pass.  The decision can use up a role, ask an identity
provider, and change what goes on to the backend.  Peers are what the gateway talks to meanwhile:
they say how calls to providers end and whether tokens hold.
-/

set_option autoImplicit false

namespace AccessGateway

/-- How a call to another party ends. -/
inductive Reply (α : Type) where
  | answer (a : α)
  /-- The other party cannot be talked to. -/
  | failure (reason : String)
  /-- The time for the whole request is over before there is an answer. -/
  | outOfTime
deriving DecidableEq, Repr

/-- The identity side of the world (`IdentityServices`). -/
structure IdentityPeers where
  /-- How a posted form is answered. -/
  provider : ProviderCall → Reply ProviderAnswer
  /-- Whether a token holds; nothing if the time for the whole request is over before its keys are
  there. -/
  accepts : TokenCheck → Option Bool

/-- What is known about a request that asks to pass (`AuthContext`). -/
structure AccessRequest where
  headers : Headers
  path : String
  now : Instant
deriving DecidableEq, Repr

/-- What a decision leaves behind for the rest of the exchange (`RequestState`). -/
structure RequestState where
  /-- Headers that take the place of the browser's at the backend. -/
  workingHeaders : Headers
  /-- A verified token for the backend. -/
  accessToken : Option String
  /-- A token that the browser has yet to get. -/
  issuedJwt : Option String
  /-- The status that a refusal chose for itself. -/
  denyStatus : Option Status
  /-- A provider ended the session. -/
  loggedOut : Bool
deriving DecidableEq, Repr

namespace RequestState

/-- The state at the start of a request of a session (`for_session`). -/
def ofSession (s : Session) : RequestState := ⟨s.headers.working, none, none, none, false⟩

/-- What goes into the request to the backend (`injection`). -/
def injection (st : RequestState) (s : Session) (path : String) : Injection :=
  ⟨s.cookies.headerFor path, st.workingHeaders, st.accessToken⟩

/-- Harvests the cookies of a provider's answer (`absorb_identity_cookies`). -/
def absorb (st : RequestState) (m : Mapping) (s : Session) (now : Instant)
    (values : List HeaderValue) : Session × RequestState :=
  let (s, harvest) := Harvest.run s m.contextRoot values now
  (s, { st with loggedOut := st.loggedOut || harvest.loggedOut })

end RequestState

/-- The outcome of a decision. -/
inductive Decision where
  | allowed
  | denied
  | failed (e : GatewayError)
  /-- The time for the whole request is over. -/
  | outOfTime
deriving DecidableEq, Repr

/-- A decision with everything it did. -/
structure Authorization where
  decision : Decision
  session : Session
  state : RequestState
  /-- The forms that were posted to providers, in order. -/
  calls : List ProviderCall
  /-- The tokens whose verification was asked for, in order. -/
  checks : List TokenCheck
  metrics : Metrics
deriving DecidableEq, Repr

/-- The decision that a check came to. -/
def Decision.ofBool (allowed : Bool) : Decision := if allowed then .allowed else .denied

/-! ## One-shot grants -/

namespace OneShot

/-- The name of the flow in metrics. -/
def label : String := "oneshot"

/-- Checks the roles of a session and takes them all away (`check_and_consume`). -/
def checkAndConsume (m : Mapping) (s : Session) (now : Instant) : Session × Bool :=
  let (s, allowed) := m.checkRoles s now
  (s.clearRoles, allowed)

/-- The listed fields of a request, with all their values (`forwarded_headers`). -/
def forwardedHeaders (names : List HeaderName) (request : Headers) : Headers :=
  ⟨names.flatMap fun name => (request.values name).map (name, ·)⟩

/-- Decides by roles; if they do not open, a provider is asked once for more (`authorize` of the
one-shot flow). -/
def authorize (m : Mapping) (url : String) (peers : IdentityPeers) (r : AccessRequest)
    (s : Session) (st : RequestState) : Authorization :=
  match checkAndConsume m s r.now with
  | (s, true) => ⟨.allowed, s, st, [], [], []⟩
  | (s, false) =>
    let call := ProviderCall.oneShot url m.name (forwardedHeaders m.headers r.headers)
    match peers.provider call with
    | .outOfTime => ⟨.outOfTime, s, st, [call], [], []⟩
    | .failure reason =>
      ⟨.failed (.identity reason), s, st, [call], [], [.identityCall label "error"]⟩
    | .answer a =>
      let (s, st) := st.absorb m s r.now a.setCookies
      let (s, allowed) := checkAndConsume m s r.now
      let outcome := if a.status.isSuccess then "ok" else "rejected"
      ⟨.ofBool allowed, s, st, [call], [], [.identityCall label outcome]⟩

end OneShot

/-! ## Token exchange -/

namespace TokenExchange

/-- The name of the flow in metrics. -/
def label : String := "token_exchange"

/-- The cookie that hands a token to the browser (`JWT_COOKIE`). -/
def jwtCookie : String := "jwt"

/-- The check that the browser's token cookie asks for; without an address of keys there is none
(`verify_cookie`). -/
def check? (client : ExchangeClient) (request : Headers) : Option TokenCheck := do
  let token ← request.requestCookie? jwtCookie
  let certificateUrl ← client.certificateUrl
  some ⟨token, certificateUrl, some client.clientId⟩

/-- The bearer token of a set of header fields. -/
def bearerOf? (h : Headers) : Option String := (h.first? .authorization).bind (·.bearerToken?)

/-- The assertion to exchange: the one of the request, else that of the working headers
(`saml_bearer`). -/
def assertion? (request working : Headers) : Option String :=
  bearerOf? request <|> bearerOf? working

/-- The form that asks for a token. -/
def call (client : ExchangeClient) (assertion : String) : ProviderCall :=
  .exchange client.url ⟨assertion, client.subjectIssuer, client.clientId, client.clientSecret⟩

/-- Decides by exchanging an assertion for a token, after the cookie was no help. -/
def exchange (m : Mapping) (client : ExchangeClient) (peers : IdentityPeers) (r : AccessRequest)
    (s : Session) (st : RequestState) (checks : List TokenCheck) : Authorization :=
  match assertion? r.headers st.workingHeaders with
  | none => ⟨.denied, s, st, [], checks, []⟩
  | some assertion =>
    let call := call client assertion
    match peers.provider call with
    | .outOfTime => ⟨.outOfTime, s, st, [call], checks, []⟩
    | .failure _ =>
      ⟨.denied, s, { st with denyStatus := some .internalError }, [call], checks,
        [.identityCall label "error"]⟩
    | .answer a =>
      match a.accessToken? with
      | none =>
        ⟨.denied, s, { st with denyStatus := some .unauthorized }, [call], checks,
          [.identityCall label "rejected"]⟩
      | some token =>
        let st := { st with
          workingHeaders := st.workingHeaders.erase .authorization
          accessToken := some token
          issuedJwt := some token }
        let (s, st) := st.absorb m s r.now a.setCookies
        ⟨.allowed, s, st, [call], checks, [.identityCall label "ok"]⟩

/-- Decides by the browser's token cookie, else by an exchange (`authorize` of the token exchange
flow). -/
def authorize (m : Mapping) (client : ExchangeClient) (peers : IdentityPeers) (r : AccessRequest)
    (s : Session) (st : RequestState) : Authorization :=
  match check? client r.headers with
  | none => exchange m client peers r s st []
  | some check =>
    match peers.accepts check with
    | none => ⟨.outOfTime, s, st, [], [check], []⟩
    | some true => ⟨.allowed, s, { st with accessToken := some check.token }, [], [check], []⟩
    | some false => exchange m client peers r s st [check]

end TokenExchange

/-- Decides whether a request of a session may pass (`authorize`). -/
def Mapping.authorize (m : Mapping) (peers : IdentityPeers) (r : AccessRequest) (s : Session)
    (st : RequestState) : Authorization :=
  match m.flow with
  | .unauthorized | .forbidden | .redirect _ =>
    let (s, allowed) := m.checkRoles s r.now
    ⟨.ofBool allowed, s, st, [], [], []⟩
  | .oneShot url => OneShot.authorize m url peers r s st
  | .tokenExchange client => TokenExchange.authorize m client peers r s st
  | .denyAll => ⟨.denied, s, st, [], [], []⟩

end AccessGateway

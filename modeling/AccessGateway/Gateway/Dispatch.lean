import AccessGateway.Access.Authorize
import AccessGateway.Circuit.Registry
import AccessGateway.Gateway.SessionCookie
import AccessGateway.Session.Store

/-!
# Dispatching requests

A request finds its session and its mapping; the mapping decides whether it may pass.  If so, it
goes to the backend under the mapping's breaker, cookies are harvested from the answer, and the
answer is relayed.  At last the browser gets the cookies that are due.  What the rest of the world
does meanwhile is given in advance: how providers and the backend answer, which tokens hold, when
things happen, and which ids are fresh.
-/

set_option autoImplicit false

namespace AccessGateway

/-- What happens around one request. -/
structure Surroundings where
  /-- When the request comes in. -/
  arrival : Instant
  /-- When it is decided whether it may pass. -/
  decided : Instant
  /-- When the backend's part is over. -/
  answered : Instant
  /-- The date of the clock on the wall. -/
  date : Timestamp
  /-- An id that no session has. -/
  freshSession : String
  /-- An id that no request has. -/
  freshRequest : String
  identity : IdentityPeers
  /-- How a request to the backend ends. -/
  backend : Request → CallOutcome String Response
  /-- Whether the time for the whole request is over while the body of an answer is read to its
  end. -/
  stalls : Bool := false

/-- The state of the gateway between requests, and what is fixed at its start (`GatewayState`). -/
structure Gateway where
  table : MappingTable
  sessions : SessionStore
  breakers : Breakers
  proxy : ProxySettings
  /-- The name of the session cookie. -/
  cookieName : String
  localPort : Nat
deriving DecidableEq, Repr

/-- Everything that came of one request. -/
structure Exchange where
  gateway : Gateway
  /-- The answer; nothing if the time for the whole request was over before there was one. -/
  response : Option Response
  /-- The forms that were posted to identity providers. -/
  calls : List ProviderCall
  /-- The tokens whose verification was asked for. -/
  checks : List TokenCheck
  /-- The requests that were sent to backends. -/
  sent : List Request
  metrics : Metrics
deriving DecidableEq, Repr

/-- The limits that the settings describe; a circuit opens after one failure at least. -/
def BreakerSettings.ofSettings (s : CircuitSettings) : BreakerSettings :=
  ⟨max 1 s.maxFailures, .ofSeconds s.timeoutSecs, .ofSeconds s.resetTimeoutSecs⟩

/-- The store without sessions that the settings describe. -/
def SessionStore.ofSettings (s : SessionSettings) : SessionStore :=
  .empty (.ofSeconds s.idleTimeoutSecs) (.ofSeconds s.maxLifetimeSecs)

namespace Gateway

/-- The gateway that the settings describe, listening at a port. -/
def ofSettings (s : Settings) (localPort : Nat) : Gateway :=
  { table := .ofSettings s.mappings
    sessions := .ofSettings s.session
    breakers := .empty (.ofSettings s.circuit)
    proxy := s.proxy
    cookieName := s.session.cookieName
    localPort }

/-- Finds the session of a request, or makes one (`session_for`). -/
def sessionFor (g : Gateway) (w : Surroundings) (headers : Headers) :
    Gateway × SessionStore.Resolved × Metrics :=
  let (sessions, found, events) :=
    g.sessions.resolve (headers.requestCookie? g.cookieName) w.freshSession w.arrival
  ({ g with sessions }, found, events)

/-- Puts back the state of a session. -/
def save (g : Gateway) (id : String) (s : Session) : Gateway :=
  { g with sessions := g.sessions.save id s }

/-- How the backend's part of an exchange ended. -/
inductive BackendResult where
  | relayed (r : Response) (loggedOut : Bool)
  | failed (e : GatewayError)
  | outOfTime
deriving DecidableEq, Repr

/-- What comes of an answer on its way to the browser; nothing if the time for the whole request is
over while its body is read. -/
def relay? (w : Surroundings) (r : Request) (answer : Response) :
    Option (Except GatewayError Response) :=
  if w.stalls && answer.isGathered r.version r.method then none
  else some (answer.relay r.version r.method w.date)

/-- Relays a backend's answer after harvesting its cookies: the last part of `proxy`. -/
def deliver (g : Gateway) (w : Surroundings) (m : Mapping) (id : String) (s : Session)
    (r : Request) (answer : Response) : Gateway × BackendResult :=
  let (cookies, headers) := Response.takeSetCookies answer.headers
  let (s, harvest) := Harvest.run s m.contextRoot cookies w.answered
  let g := g.save id s
  match relay? w r { answer with headers } with
  | none => (g, .outOfTime)
  | some (.error e) => (g, .failed e)
  | some (.ok response) =>
    let forwarded : Headers := ⟨harvest.forward.map (.setCookie, ·)⟩
    let headers := response.headers.appendAll forwarded
    (g, .relayed { response with headers } harvest.loggedOut)

/-- Sends a request that may pass to the backend, under the breaker of its mapping (`proxy`). -/
def forward (g : Gateway) (w : Surroundings) (m : Mapping) (id : String) (s : Session)
    (r : Request) (injection : Injection) : Gateway × BackendResult × List Request × Metrics :=
  match Outbound.request m.backend r injection g.proxy g.localPort with
  | .error e => (g, .failed e, [], [])
  | .ok outbound =>
    let (breakers, result, events) :=
      g.breakers.call m.name w.decided w.answered (w.backend outbound) (·.status.isServerError)
    let g := { g with breakers }
    match result with
    | .error .circuitOpen => (g, .failed (.circuitOpen m.name), [], events)
    | .error (.timedOut limit) => (g, .failed (.timeout limit), [outbound], events)
    | .error (.failed reason) => (g, .failed (.backend reason), [outbound], events)
    | .error .abandoned => (g, .outOfTime, [outbound], events)
    | .ok answer =>
      let (g, result) := g.deliver w m id s r answer
      (g, result, [outbound], events)

/-- Gives the browser the cookies that are due: a token that was issued, and the session's id or
its end.  A session that was ended is removed.  This is the end of `handle`. -/
def settle (g : Gateway) (id : String) (created : Bool) (issuedJwt : Option String)
    (loggedOut : Bool) (response : Response) : Gateway × Response × Metrics :=
  let response := match issuedJwt with
    | some token => response.addCookie (BrowserCookie.token TokenExchange.jwtCookie token)
    | none => response
  if loggedOut then
    let (sessions, events) := g.sessions.remove id
    ({ g with sessions }, response.addCookie (BrowserCookie.expired g.cookieName), events)
  else if created then
    (g, response.addCookie (BrowserCookie.session g.cookieName id), [])
  else (g, response, [])

/-- Serves a request that can be relayed, under its mapping (`handle`). -/
def handle (g : Gateway) (w : Surroundings) (m : Mapping) (r : Request) : Exchange :=
  let path := r.target.path
  let (g, found, opened) := g.sessionFor w r.headers
  let auth := m.authorize w.identity ⟨r.headers, path, w.arrival⟩ found.session
    (.ofSession found.session)
  let g := g.save found.id auth.session
  let injection := auth.state.injection auth.session path
  let ended (g : Gateway) (response : Response) (loggedOut : Bool) (sent : List Request)
      (events : Metrics) : Exchange :=
    let (g, response, closed) := g.settle found.id found.created auth.state.issuedJwt
      (auth.state.loggedOut || loggedOut) response
    ⟨g, some response, auth.calls, auth.checks, sent, opened ++ auth.metrics ++ events ++ closed⟩
  match auth.decision with
  | .failed e => ended g e.response false [] []
  | .denied => ended g (m.deny path auth.state.denyStatus) false [] [m.denial]
  | .outOfTime => ⟨g, none, auth.calls, auth.checks, [], opened ++ auth.metrics⟩
  | .allowed =>
    match g.forward w m found.id auth.session r injection with
    | (g, .relayed response loggedOut, sent, events) => ended g response loggedOut sent events
    | (g, .failed e, sent, events) => ended g e.response false sent events
    | (g, .outOfTime, sent, events) =>
      ⟨g, none, auth.calls, auth.checks, sent, opened ++ auth.metrics ++ events⟩

/-- Serves a request; it is counted once it is answered (`dispatch`). -/
def dispatch (g : Gateway) (w : Surroundings) (r : Request) : Exchange :=
  let m := g.table.resolve r.target.path
  let x : Exchange := match r.check with
    | .error e => ⟨g, some e.response, [], [], [], []⟩
    | .ok () => g.handle w m r
  match x.response with
  | some response =>
    let event := MetricEvent.request m.name r.method.text response.status.code
    { x with metrics := x.metrics ++ [event] }
  | none => x

end Gateway
end AccessGateway

import AccessGateway.Relay.Answer
import AccessGateway.Settings.Schema
import AccessGateway.Wire.Cookie

/-!
# Requests to backends

A request that was let through goes on with the method, path and query it came with.  Cookies of
the browser stay behind; the session's cookie jar, its working headers and a token take their
place.  The backend is told how the gateway was addressed, and whether the browser is known.
-/

set_option autoImplicit false

namespace AccessGateway

/-- The mark in front of a bearer token (`BEARER_PREFIX`). -/
def bearerMark : String := "Bearer "

/-- The token of an `Authorization` value, without the mark (`bearer_token`). -/
def HeaderValue.bearerToken? (value : HeaderValue) : Option String := do
  let text ← value.text?
  let rest ← bearerMark.toList.isPrefixOf? text.toList
  let token := Text.trim rest
  if token = [] then none else some (String.ofList token)

/-- The `Authorization` value of a token (`bearer_value`). -/
def HeaderValue.ofBearer? (token : String) : Option HeaderValue :=
  HeaderValue.ofText? (bearerMark ++ token)

/-- The value of the first cookie of a name that the browser sent (`request_cookie`). -/
def Headers.requestCookie? (h : Headers) (name : String) : Option String :=
  let pairs := ((h.values .cookie).filterMap HeaderValue.text?).flatMap Cookie.split
  (pairs.find? (·.1 = name)).map (·.2)

/-- A look-up sees nothing but the `Cookie` fields. -/
theorem Headers.requestCookie?_congr {h h' : Headers}
    (hcookies : h.values .cookie = h'.values .cookie) (name : String) :
    h.requestCookie? name = h'.requestCookie? name := by
  unfold requestCookie?
  rw [hcookies]

/-- Whether the gateway can relay a request at all (`validate`). -/
def Request.check (r : Request) : Except GatewayError Unit :=
  if r.version = .http10 ∨ r.version = .http11 ∨ r.version = .http2 then
    match r.headers.first? .transferEncoding with
    | some value =>
      if value.isChunked then .ok () else .error (.unsupportedTransferEncoding value.encodingText)
    | none => .ok ()
  else .error (.unsupportedVersion r.version)

namespace BackendSettings

/-- The text of the backend's address for a request's target. -/
def targetText (b : BackendSettings) (frontend : Uri) : String :=
  Text.toLower b.protocol ++ "://" ++ b.host ++ ":" ++ Text.decimal b.port ++ b.pathStart ++
    frontend.pathAndQuery?.getD "/"

/-- The backend's address for a request's target (`target_uri`). -/
def target (b : BackendSettings) (frontend : Uri) : Except GatewayError Uri :=
  match Uri.parse (b.targetText frontend) with
  | .ok uri => .ok uri
  | .error e => .error (.invalidRequest e)

end BackendSettings

/-- What a session and its authorization put into a request (`Injection`). -/
structure Injection where
  /-- The cookies of the jar. -/
  cookieHeader : Option String
  /-- Headers that take the place of the browser's. -/
  workingHeaders : Headers
  /-- A verified token. -/
  accessToken : Option String
deriving DecidableEq, Repr

namespace Injection

/-- Nothing is put in. -/
def none : Injection := ⟨.none, .empty, .none⟩

end Injection

namespace Outbound

/-- The cookie by which the portal marks a browser it knows (`AUTHENTICATION_LEVEL_COOKIE`). -/
def authenticationLevelCookie : String := "AuthenticationLevel"

/-- A host without its port: `example.org:8080` is `example.org`, `[::1]:80` is `[::1]`
(`strip_port`). -/
def stripPort (host : String) : String :=
  let cs := host.toList
  if cs.head? = some '[' then
    match Text.cut? ']' cs with
    | some (inner, _) => String.ofList (inner ++ [']'])
    | none => host
  else
    match Text.cutLast? ':' cs with
    | some (name, port) => if port.all Char.isDigit then String.ofList name else host
    | none => host

/-- Whether a field of the browser goes on. -/
def isCopied (name : HeaderName) : Bool :=
  name ≠ .host && name ≠ .cookie && !name.isHopByHop

/-- The token that goes on: the verified one, else that of the application's own cookie. -/
def token? (frontend : Headers) (injection : Injection) (settings : ProxySettings) :
    Option String :=
  injection.accessToken <|> settings.applicationJwtCookie.bind frontend.requestCookie?

/-- The host that the gateway was addressed by. -/
def forwardedHost? (frontend : Headers) (settings : ProxySettings) : Option String :=
  settings.forwardedHost <|> ((frontend.first? .host).bind HeaderValue.text?).map stripPort

/-- Puts a value under a name that has none. -/
def fillIn (h : Headers) (name : HeaderName) (value : Option HeaderValue) : Headers :=
  if h.has name then h else h.insertSome name value

/-- Whether the browser counts as known (`portal_signal`). -/
def isKnown (frontend : Headers) (injection : Injection) : Bool :=
  injection.accessToken.isSome || (frontend.requestCookie? authenticationLevelCookie).isSome

/-- The header fields of the request to the backend (`outbound_headers`). -/
def headers (frontend : Headers) (injection : Injection) (settings : ProxySettings)
    (localPort : Nat) : Headers :=
  let out := (frontend.filterNames isCopied).overlay injection.workingHeaders
  let out := out.insertSome .cookie (injection.cookieHeader.bind HeaderValue.ofText?)
  let out := out.insertSome .authorization
    ((token? frontend injection settings).bind HeaderValue.ofBearer?)
  let out := fillIn out .forwardedHost
    ((forwardedHost? frontend settings).bind HeaderValue.ofText?)
  let out := fillIn out .forwardedPort
    (some (.ofNat (settings.forwardedPort.getD localPort)))
  if isKnown frontend injection then
    out.insert .portalAuthenticated ⟨Bytes.ofText "true"⟩
  else out

/-- The request to the backend for a request that was let through (`build_request`). -/
def request (backend : BackendSettings) (frontend : Request) (injection : Injection)
    (settings : ProxySettings) (localPort : Nat) : Except GatewayError Request := do
  let target ← backend.target frontend.target
  .ok
    { method := frontend.method
      target
      version := .http11
      headers := headers frontend.headers injection settings localPort
      body := frontend.body.pumped }

end Outbound
end AccessGateway

/-!
# Settings

What an operator can set, with the values that hold where nothing is set.
-/

set_option autoImplicit false

namespace AccessGateway

/-- Where the gateway listens. -/
structure ListenerSettings where
  bindAddress : String := "0.0.0.0:8080"
deriving DecidableEq, Repr, Inhabited

/-- What backends are told about the frontend. -/
structure ProxySettings where
  forwardedHost : Option String := none
  forwardedPort : Option Nat := none
  applicationJwtCookie : Option String := none
deriving DecidableEq, Repr, Inhabited

/-- The session cookie and the limits of sessions, in seconds. -/
structure SessionSettings where
  cookieName : String := "gateway.session"
  idleTimeoutSecs : Nat := 1800
  maxLifetimeSecs : Nat := 28800
  sweepIntervalSecs : Nat := 60
deriving DecidableEq, Repr, Inhabited

/-- The limits of the circuit breakers, times in seconds. -/
structure CircuitSettings where
  maxFailures : Nat := 10
  timeoutSecs : Nat := 240
  resetTimeoutSecs : Nat := 10
deriving DecidableEq, Repr, Inhabited

/-- How identity providers are called. -/
structure IdentitySettings where
  connectTimeoutSecs : Nat := 2
  requestTimeoutSecs : Nat := 10
  userAgent : String := "waf-gateway/0.1.0"
deriving DecidableEq, Repr, Inhabited

/-- Under which path SAML responses are posted. -/
structure SamlSettings where
  postBindingPath : Option String := none
deriving DecidableEq, Repr, Inhabited

/-- How long a request may take as a whole. -/
structure TimeoutSettings where
  requestSecs : Nat := 300
deriving DecidableEq, Repr, Inhabited

/-- Logging and metrics. -/
structure ObservabilitySettings where
  logLevel : String := "info"
  metricsEnabled : Bool := false
  metricsAddress : String := "0.0.0.0:9090"
deriving DecidableEq, Repr, Inhabited

/-- How a mapping decides on requests. -/
inductive FlowKind where
  | code401
  | code403
  | redirect
  | oneShot
  | tokenExchange
deriving DecidableEq, Repr, Inhabited

namespace FlowKind

/-- All kinds. -/
def all : List FlowKind := [.code401, .code403, .redirect, .oneShot, .tokenExchange]

/-- The name in a configuration. -/
def name : FlowKind → String
  | .code401 => "CODE_401"
  | .code403 => "CODE_403"
  | .redirect => "REDIRECT"
  | .oneShot => "ONESHOT"
  | .tokenExchange => "TOKENEXCHANGE"

/-- The name in a message. -/
def title : FlowKind → String
  | .code401 => "Code401"
  | .code403 => "Code403"
  | .redirect => "Redirect"
  | .oneShot => "OneShot"
  | .tokenExchange => "TokenExchange"

/-- The kind with a name. -/
def ofName? (s : String) : Option FlowKind := all.find? (·.name = s)

/-- The kinds that need to know where to turn to when access is denied. -/
def needsDenyTarget : FlowKind → Bool
  | .redirect | .oneShot | .tokenExchange => true
  | .code401 | .code403 => false

end FlowKind

/-- The application server behind a mapping. -/
structure BackendSettings where
  protocol : String := "http"
  host : String := ""
  port : Nat := 80
  pathStart : String := ""
deriving DecidableEq, Repr, Inhabited

/-- A part of the site with its backend and its way to decide on requests. -/
structure MappingSettings where
  name : String := ""
  contextRoot : String := ""
  flow : FlowKind := .code401
  restrictedToRoles : List String := []
  deniedAccessUrl : Option String := none
  headers : List String := []
  backend : BackendSettings := {}
  options : List (String × String) := []
deriving DecidableEq, Repr, Inhabited

/-- All settings. -/
structure Settings where
  listener : ListenerSettings := {}
  proxy : ProxySettings := {}
  session : SessionSettings := {}
  circuit : CircuitSettings := {}
  identity : IdentitySettings := {}
  saml : SamlSettings := {}
  timeouts : TimeoutSettings := {}
  observability : ObservabilitySettings := {}
  mappings : List MappingSettings := []
deriving DecidableEq, Repr, Inhabited

namespace MappingSettings

/-- The option with the client's name at the identity provider. -/
def clientId : String := "clientId"
/-- The option with the client's password. -/
def clientSecret : String := "clientSecret"
/-- The option with the issuer of the tokens to be exchanged. -/
def subjectIssuer : String := "subjectIssuer"
/-- The option with the address of the keys that tokens are verified with. -/
def certificateUrl : String := "certificateUrl"

/-- The value of an option. -/
def option? (m : MappingSettings) (key : String) : Option String :=
  (m.options.find? (·.1 = key)).map (·.2)

end MappingSettings
end AccessGateway

import AccessGateway.Document.Basic
import AccessGateway.Settings.Schema

/-!
# Settings in documents

A group of settings is a table with a name for each, or a list in their order.  What is left out
has its usual value, what is not known is passed over, and what has another type than expected
makes the whole unreadable.  `toDocument` writes all settings out.
-/

set_option autoImplicit false

namespace AccessGateway.Settings

/-- The fields of a group, found by position or name. -/
structure Fields where
  field? : Nat → String → Option Document

/-- The fields of a group of at most `count`. -/
def Fields.of? (count : Nat) : Document → Option Fields
  | .table entries => some ⟨fun _ name => (Document.table entries).get? name⟩
  | .list items => if items.length ≤ count then some ⟨fun i _ => items[i]?⟩ else none
  | _ => none

/-- Reads one field, which has the value `usual` if it is left out. -/
def Fields.read {α : Type} (f : Fields) (i : Nat) (name : String) (reader : Document → Option α)
    (usual : α) : Option α :=
  match f.field? i name with
  | some d => reader d
  | none => some usual

/-- Reads a text. -/
def text? : Document → Option String
  | .text s => some s
  | _ => none

/-- Reads a truth value. -/
def bool? : Document → Option Bool
  | .bool b => some b
  | _ => none

/-- Reads a number below `size`. -/
def word? (size : Nat) : Document → Option Nat
  | .integer n => if 0 ≤ n ∧ n < size then some n.toNat else none
  | _ => none

/-- Reads a number of seconds. -/
def seconds? : Document → Option Nat := word? UInt64.size

/-- Reads something that may be left out by writing `null`. -/
def optional? {α : Type} (reader : Document → Option α) : Document → Option (Option α)
  | .null => some none
  | d => (reader d).map some

/-- Reads a list. -/
def list? {α : Type} (reader : Document → Option α) : Document → Option (List α)
  | .list items => items.mapM reader
  | _ => none

/-- Reads a table of texts. -/
def texts? : Document → Option (List (String × String))
  | .table entries => entries.mapM fun (key, d) => (text? d).map (key, ·)
  | _ => none

/-- Reads the name of a flow. -/
def flow? : Document → Option FlowKind
  | .text s => FlowKind.ofName? s
  | .table [(name, .null)] => FlowKind.ofName? name
  | _ => none

def listener? (d : Document) : Option ListenerSettings := do
  let f ← Fields.of? 1 d
  let usual : ListenerSettings := {}
  some { bindAddress := ← f.read 0 "bind_address" text? usual.bindAddress }

def proxy? (d : Document) : Option ProxySettings := do
  let f ← Fields.of? 3 d
  some
    { forwardedHost := ← f.read 0 "forwarded_host" (optional? text?) none
      forwardedPort := ← f.read 1 "forwarded_port" (optional? (word? UInt16.size)) none
      applicationJwtCookie := ← f.read 2 "application_jwt_cookie" (optional? text?) none }

def session? (d : Document) : Option SessionSettings := do
  let f ← Fields.of? 4 d
  let usual : SessionSettings := {}
  some
    { cookieName := ← f.read 0 "cookie_name" text? usual.cookieName
      idleTimeoutSecs := ← f.read 1 "idle_timeout_secs" seconds? usual.idleTimeoutSecs
      maxLifetimeSecs := ← f.read 2 "max_lifetime_secs" seconds? usual.maxLifetimeSecs
      sweepIntervalSecs := ← f.read 3 "sweep_interval_secs" seconds? usual.sweepIntervalSecs }

def circuit? (d : Document) : Option CircuitSettings := do
  let f ← Fields.of? 3 d
  let usual : CircuitSettings := {}
  some
    { maxFailures := ← f.read 0 "max_failures" (word? UInt32.size) usual.maxFailures
      timeoutSecs := ← f.read 1 "timeout_secs" seconds? usual.timeoutSecs
      resetTimeoutSecs := ← f.read 2 "reset_timeout_secs" seconds? usual.resetTimeoutSecs }

def identity? (d : Document) : Option IdentitySettings := do
  let f ← Fields.of? 3 d
  let usual : IdentitySettings := {}
  some
    { connectTimeoutSecs := ← f.read 0 "connect_timeout_secs" seconds? usual.connectTimeoutSecs
      requestTimeoutSecs := ← f.read 1 "request_timeout_secs" seconds? usual.requestTimeoutSecs
      userAgent := ← f.read 2 "user_agent" text? usual.userAgent }

def saml? (d : Document) : Option SamlSettings := do
  let f ← Fields.of? 1 d
  some { postBindingPath := ← f.read 0 "post_binding_prefix" (optional? text?) none }

def timeouts? (d : Document) : Option TimeoutSettings := do
  let f ← Fields.of? 1 d
  let usual : TimeoutSettings := {}
  some { requestSecs := ← f.read 0 "request_secs" seconds? usual.requestSecs }

def observability? (d : Document) : Option ObservabilitySettings := do
  let f ← Fields.of? 3 d
  let usual : ObservabilitySettings := {}
  some
    { logLevel := ← f.read 0 "log_level" text? usual.logLevel
      metricsEnabled := ← f.read 1 "metrics_enabled" bool? usual.metricsEnabled
      metricsAddress := ← f.read 2 "metrics_address" text? usual.metricsAddress }

def backend? (d : Document) : Option BackendSettings := do
  let f ← Fields.of? 4 d
  let usual : BackendSettings := {}
  some
    { protocol := ← f.read 0 "protocol" text? usual.protocol
      host := ← f.read 1 "host" text? usual.host
      port := ← f.read 2 "port" (word? UInt16.size) usual.port
      pathStart := ← f.read 3 "path_prefix" text? usual.pathStart }

def mapping? (d : Document) : Option MappingSettings := do
  let f ← Fields.of? 8 d
  let usual : MappingSettings := {}
  some
    { name := ← f.read 0 "name" text? usual.name
      contextRoot := ← f.read 1 "context_root" text? usual.contextRoot
      flow := ← f.read 2 "authentication_flow" flow? usual.flow
      restrictedToRoles := ← f.read 3 "restricted_to_roles" (list? text?) usual.restrictedToRoles
      deniedAccessUrl := ← f.read 4 "denied_access_url" (optional? text?) usual.deniedAccessUrl
      headers := ← f.read 5 "headers" (list? text?) usual.headers
      backend := ← f.read 6 "backend" backend? usual.backend
      options := ← f.read 7 "config" texts? usual.options }

/-- Reads all settings. -/
def ofDocument? (d : Document) : Option Settings := do
  let f ← Fields.of? 9 d
  some
    { listener := ← f.read 0 "listener" listener? {}
      proxy := ← f.read 1 "proxy" proxy? {}
      session := ← f.read 2 "session" session? {}
      circuit := ← f.read 3 "circuit_breaker" circuit? {}
      identity := ← f.read 4 "identity" identity? {}
      saml := ← f.read 5 "saml" saml? {}
      timeouts := ← f.read 6 "timeouts" timeouts? {}
      observability := ← f.read 7 "observability" observability? {}
      mappings := ← f.read 8 "mappings" (list? mapping?) [] }

/-! ## Writing -/

/-- A value that may be missing. -/
def ofOption {α : Type} (write : α → Document) : Option α → Document
  | some a => write a
  | none => .null

/-- A number. -/
def ofNat (n : Nat) : Document := .integer n

def backendDocument (b : BackendSettings) : Document :=
  .table [("protocol", .text b.protocol), ("host", .text b.host), ("port", ofNat b.port),
    ("path_prefix", .text b.pathStart)]

def mappingDocument (m : MappingSettings) : Document :=
  .table
    [("name", .text m.name), ("context_root", .text m.contextRoot),
      ("authentication_flow", .text m.flow.name),
      ("restricted_to_roles", .list (m.restrictedToRoles.map .text)),
      ("denied_access_url", ofOption .text m.deniedAccessUrl),
      ("headers", .list (m.headers.map .text)), ("backend", backendDocument m.backend),
      ("config", .table (m.options.map fun (key, value) => (key, .text value)))]

/-- All settings, the usual ones included. -/
def toDocument (s : Settings) : Document :=
  .table
    [("listener", .table [("bind_address", .text s.listener.bindAddress)]),
      ("proxy", .table
        [("forwarded_host", ofOption .text s.proxy.forwardedHost),
          ("forwarded_port", ofOption ofNat s.proxy.forwardedPort),
          ("application_jwt_cookie", ofOption .text s.proxy.applicationJwtCookie)]),
      ("session", .table
        [("cookie_name", .text s.session.cookieName),
          ("idle_timeout_secs", ofNat s.session.idleTimeoutSecs),
          ("max_lifetime_secs", ofNat s.session.maxLifetimeSecs),
          ("sweep_interval_secs", ofNat s.session.sweepIntervalSecs)]),
      ("circuit_breaker", .table
        [("max_failures", ofNat s.circuit.maxFailures),
          ("timeout_secs", ofNat s.circuit.timeoutSecs),
          ("reset_timeout_secs", ofNat s.circuit.resetTimeoutSecs)]),
      ("identity", .table
        [("connect_timeout_secs", ofNat s.identity.connectTimeoutSecs),
          ("request_timeout_secs", ofNat s.identity.requestTimeoutSecs),
          ("user_agent", .text s.identity.userAgent)]),
      ("saml", .table [("post_binding_prefix", ofOption .text s.saml.postBindingPath)]),
      ("timeouts", .table [("request_secs", ofNat s.timeouts.requestSecs)]),
      ("observability", .table
        [("log_level", .text s.observability.logLevel),
          ("metrics_enabled", .bool s.observability.metricsEnabled),
          ("metrics_address", .text s.observability.metricsAddress)]),
      ("mappings", .list (s.mappings.map mappingDocument))]

end AccessGateway.Settings

import AccessGateway.Net.HttpUrl
import AccessGateway.Settings.Schema
import AccessGateway.Wire.Header

/-!
# Validation of settings

All faults of the settings are reported together: first those of the gateway as a whole, then those
of each mapping in turn.  A fault names the field it is about and says what is wrong with it.
-/

set_option autoImplicit false

namespace AccessGateway

/-- What can be wrong with a mapping. -/
inductive MappingFault where
  | nameMissing
  | nameTaken
  | contextRootRelative
  | hostMissing
  | portZero
  | protocolUnknown (protocol : String)
  | denyTargetMissing (flow : FlowKind)
  | denyTargetRelative
  | optionMissing (key : String)
  | headerInvalid (header : String)
deriving DecidableEq, Repr

/-- What can be wrong with the settings.  A mapping is told by its scope. -/
inductive SettingsFault where
  | bindAddress (text : String)
  | cookieName
  | sessionTimeouts
  | sweepInterval
  | circuit
  | postBindingPath
  | mapping (scope : String) (fault : MappingFault)
deriving DecidableEq, Repr

namespace MappingFault

/-- The field of the mapping that is at fault. -/
def field : MappingFault → String
  | .nameMissing | .nameTaken => ""
  | .contextRootRelative => ".context_root"
  | .hostMissing => ".backend.host"
  | .portZero => ".backend.port"
  | .protocolUnknown _ => ".backend.protocol"
  | .denyTargetMissing _ | .denyTargetRelative => ".denied_access_url"
  | .optionMissing key => ".config." ++ key
  | .headerInvalid _ => ".headers"

/-- What is wrong with it. -/
def message : MappingFault → String
  | .nameMissing => "name is required"
  | .nameTaken => "duplicate mapping name"
  | .contextRootRelative => "must start with '/'"
  | .hostMissing => "is required"
  | .portZero => "must be non-zero"
  | .protocolUnknown p => "'" ++ p ++ "' is not supported, backends are reached over plain http"
  | .denyTargetMissing flow => "is required for flow " ++ flow.title
  | .denyTargetRelative => "must be an absolute http(s) URL of the identity provider"
  | .optionMissing _ => "is required for flow TokenExchange"
  | .headerInvalid h => "'" ++ h ++ "' is not a valid header name"

end MappingFault

namespace SettingsFault

/-- The field at fault. -/
def field : SettingsFault → String
  | .bindAddress _ => "listener.bind_address"
  | .cookieName => "session.cookie_name"
  | .sessionTimeouts => "session"
  | .sweepInterval => "session.sweep_interval_secs"
  | .circuit => "circuit_breaker"
  | .postBindingPath => "saml.post_binding_prefix"
  | .mapping scope fault => scope ++ fault.field

/-- What is wrong with it. -/
def message : SettingsFault → String
  | .bindAddress text => "'" ++ text ++ "' is not a socket address"
  | .cookieName => "must not be empty"
  | .sessionTimeouts => "timeouts must be positive"
  | .sweepInterval => "must be positive"
  | .circuit => "all values must be positive"
  | .postBindingPath => "must be an absolute path such as '/saml'"
  | .mapping _ fault => fault.message

/-- The fault in one line. -/
def text (f : SettingsFault) : String := f.field ++ ": " ++ f.message

end SettingsFault

namespace Validation

/-- The fault, if a condition for it holds. -/
def faultIf {α : Type} (condition : Bool) (fault : α) : List α := if condition then [fault] else []

/-- The faults of the target that a flow turns to when access is denied. -/
def denyTargetFaults (m : MappingSettings) : List MappingFault :=
  if m.flow.needsDenyTarget then
    match m.deniedAccessUrl.filter (· ≠ "") with
    | none => [.denyTargetMissing m.flow]
    | some url =>
      faultIf (m.flow ≠ .redirect && (HttpUrl.parse? url).isNone) .denyTargetRelative
  else []

/-- The options that a token exchange needs. -/
def requiredOptions : List String :=
  [MappingSettings.clientId, MappingSettings.clientSecret, MappingSettings.subjectIssuer]

/-- The faults of the options of a token exchange. -/
def optionFaults (m : MappingSettings) : List MappingFault :=
  if m.flow = .tokenExchange then
    (requiredOptions.filter fun key => (m.option? key).getD "" = "").map .optionMissing
  else []

/-- The faults that a mapping has whatever the other mappings are. -/
def ownFaults (m : MappingSettings) : List MappingFault :=
  faultIf (m.contextRoot.toList.head? ≠ some '/') .contextRootRelative ++
  faultIf (m.backend.host = "") .hostMissing ++
  faultIf (m.backend.port = 0) .portZero ++
  faultIf (!Text.eqIgnoreCase m.backend.protocol "http") (.protocolUnknown m.backend.protocol) ++
  denyTargetFaults m ++ optionFaults m ++
  (m.headers.filter fun h => (HeaderName.parse? h).isNone).map .headerInvalid

/-- How a mapping is told in messages: by its name, or by its position if it has none. -/
def scope (index : Nat) (m : MappingSettings) : String :=
  if m.name = "" then "mappings[" ++ Text.decimal index ++ "]" else "mappings." ++ m.name

/-- The faults of a mapping's name, given the names before it. -/
def nameFaults (seen : List String) (m : MappingSettings) : List MappingFault :=
  if m.name = "" then [.nameMissing] else faultIf (seen.contains m.name) .nameTaken

/-- The faults of a row of mappings, the first of which has the given position. -/
def mappingFaults (index : Nat) (seen : List String) : List MappingSettings → List SettingsFault
  | [] => []
  | m :: rest =>
    (nameFaults seen m ++ ownFaults m).map (.mapping (scope index m)) ++
      mappingFaults (index + 1) (m.name :: seen) rest

/-- The faults of the gateway as a whole. -/
def globalFaults (s : Settings) : List SettingsFault :=
  faultIf (SocketAddress.parse? s.listener.bindAddress).isNone
    (.bindAddress s.listener.bindAddress) ++
  faultIf (s.session.cookieName = "") .cookieName ++
  faultIf (s.session.idleTimeoutSecs = 0 || s.session.maxLifetimeSecs = 0) .sessionTimeouts ++
  faultIf (s.session.sweepIntervalSecs = 0) .sweepInterval ++
  faultIf (s.circuit.maxFailures = 0 || s.circuit.timeoutSecs = 0 ||
    s.circuit.resetTimeoutSecs = 0) .circuit ++
  (match s.saml.postBindingPath with
    | some path =>
      faultIf (path.toList.head? ≠ some '/' || path.utf8ByteSize < 2) .postBindingPath
    | none => [])

/-- All faults of the settings, in order. -/
def faults (s : Settings) : List SettingsFault := globalFaults s ++ mappingFaults 0 [] s.mappings

end Validation

/-- Settings without faults. -/
def Settings.isValid (s : Settings) : Bool := (Validation.faults s).isEmpty

end AccessGateway

import AccessGateway.Access.Flow
import AccessGateway.Encoding.Form
import AccessGateway.Metrics
import AccessGateway.Session.State
import AccessGateway.Wire.Message

/-!
# Mappings

A mapping rules a part of the site: the paths that start with its context root.  It says which
roles open that part, which backend serves it, and what becomes of requests that are turned away.
The table of all mappings is searched in order; what no mapping rules is turned away.
-/

set_option autoImplicit false

namespace AccessGateway

/-- The rule for a part of the site. -/
structure Mapping where
  name : String
  contextRoot : String
  flow : Flow
  requiredRoles : List String
  /-- The fields of the browser's request that an identity provider may see. -/
  headers : List HeaderName
  backend : BackendSettings
deriving DecidableEq, Repr

namespace Mapping

/-- The mapping that the settings describe; names that no header can have are left out. -/
def ofSettings (m : MappingSettings) : Mapping :=
  { name := m.name
    contextRoot := m.contextRoot
    flow := .ofSettings m
    requiredRoles := m.restrictedToRoles
    headers := m.headers.filterMap fun h => HeaderName.parse? (Text.trimmed h)
    backend := m.backend }

/-- The rule for all that no mapping rules (`deny_all`). -/
def denyAll : Mapping :=
  { name := "deny-all", contextRoot := "/", flow := .denyAll, requiredRoles := [], headers := [],
    backend := {} }

/-- Whether a path lies in the mapping's part of the site (`matches`). -/
def covers (m : Mapping) (path : String) : Bool :=
  m.contextRoot.toList.isPrefixOf path.toList

/-- Checks the roles of a session (`check_roles`).  The access is noted, and the role that opens is
used. -/
def checkRoles (m : Mapping) (session : Session) (now : Instant) : Session × Bool :=
  let session := session.recordAccess m.contextRoot now
  if m.requiredRoles = [] then (session, true)
  else match session.useAnyRole m.requiredRoles now with
    | some (_, session) => (session, true)
    | none => (session, false)

/-- The end of an address that wants the path of the request behind it. -/
def redirectMark : String := "redirect_uri="

/-- Where a request is sent that is turned away to an address (`redirect_location`). -/
def redirectLocation (url path : String) : String :=
  if redirectMark.toList.isSuffixOf url.toList then
    url ++ String.ofList (Form.encode path.toList)
  else url

/-- The answer to a request for `path` that is turned away.  A token exchange may have chosen the
status itself. -/
def deny (m : Mapping) (path : String) (chosen : Option Status) : Response :=
  match m.flow with
  | .unauthorized => .ofStatus .unauthorized
  | .forbidden | .oneShot _ | .denyAll => .ofStatus .forbidden
  | .tokenExchange _ => .ofStatus (chosen.getD .unauthorized)
  | .redirect url =>
    match HeaderValue.ofText? (redirectLocation url path) with
    | some value => (Response.ofStatus .found).setHeader .location value
    | none => .ofStatus .internalError

/-- The event of turning a request away (`record_denial`). -/
def denial (m : Mapping) : MetricEvent := .denial m.name m.flow.label

end Mapping

/-- All mappings in the order of the settings. -/
structure MappingTable where
  mappings : List Mapping
deriving DecidableEq, Repr

namespace MappingTable

/-- The table that the settings describe. -/
def ofSettings (ms : List MappingSettings) : MappingTable := ⟨ms.map Mapping.ofSettings⟩

/-- The number of mappings. -/
def size (t : MappingTable) : Nat := t.mappings.length

/-- The rule for a path: the first mapping that covers it. -/
def resolve (t : MappingTable) (path : String) : Mapping :=
  (t.mappings.find? (·.covers path)).getD .denyAll

end MappingTable
end AccessGateway

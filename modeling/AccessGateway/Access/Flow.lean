import AccessGateway.Settings.Schema
import AccessGateway.Text.Blank

/-!
# Flows

The ways in which a mapping decides on requests and turns them away.
-/

set_option autoImplicit false

namespace AccessGateway

/-- The client that exchanges assertions for tokens. -/
structure ExchangeClient where
  /-- Where tokens are asked for. -/
  url : String
  clientId : String
  clientSecret : String
  subjectIssuer : String
  /-- Where the keys for verifying tokens are published. -/
  certificateUrl : Option String
deriving DecidableEq, Repr

/-- How a mapping decides and turns away. -/
inductive Flow where
  /-- By roles; turned away with 401. -/
  | unauthorized
  /-- By roles; turned away with 403. -/
  | forbidden
  /-- By roles; turned away to another address. -/
  | redirect (url : String)
  /-- By roles that a provider may grant for this one request. -/
  | oneShot (url : String)
  /-- By a token, which an assertion may be exchanged for. -/
  | tokenExchange (client : ExchangeClient)
  /-- Everything is turned away. -/
  | denyAll
deriving DecidableEq, Repr

namespace Flow

/-- The flow that the settings of a mapping describe (`from_config`); what they leave out is
empty. -/
def ofSettings (m : MappingSettings) : Flow :=
  let url := m.deniedAccessUrl.getD ""
  match m.flow with
  | .code401 => .unauthorized
  | .code403 => .forbidden
  | .redirect => .redirect url
  | .oneShot => .oneShot url
  | .tokenExchange => .tokenExchange
    { url
      clientId := (m.option? MappingSettings.clientId).getD ""
      clientSecret := (m.option? MappingSettings.clientSecret).getD ""
      subjectIssuer := (m.option? MappingSettings.subjectIssuer).getD ""
      certificateUrl :=
        (m.option? MappingSettings.certificateUrl).filter fun u => Text.trim u.toList ≠ [] }

/-- The name of the flow in metrics. -/
def label : Flow → String
  | unauthorized => "unauthorized"
  | forbidden => "forbidden"
  | redirect _ => "redirect"
  | oneShot _ => "oneshot"
  | tokenExchange _ => "token_exchange"
  | denyAll => "deny_all"

end Flow
end AccessGateway

import AccessGateway.Time.Duration
import AccessGateway.Wire.Message
import AccessGateway.Wire.Uri

/-!
# Failed exchanges

Why an exchange ended without an answer of its own, the status that the browser gets to see
instead, and the wording for the log.  Such answers have no body.
-/

set_option autoImplicit false

namespace AccessGateway

/-- The cause of a failed exchange. -/
inductive GatewayError where
  /-- The request is framed in a way that is not understood. -/
  | unsupportedTransferEncoding (value : String)
  /-- The request is in a version of the protocol that is not spoken. -/
  | unsupportedVersion (version : Version)
  /-- The answer comes in chunks, which the browser's version does not know. -/
  | chunkedNotSupported (version : Version)
  /-- The answer is framed in a way that is not understood. -/
  | unsupportedResponseEncoding (value : String)
  /-- The backend cannot be talked to. -/
  | backend (reason : String)
  /-- The body of the answer broke off before it was passed on. -/
  | backendBody (reason : String)
  /-- The backend did not answer in time. -/
  | timeout (limit : Duration)
  /-- The circuit of the mapping is open. -/
  | circuitOpen (mapping : String)
  /-- The identity provider cannot be talked to. -/
  | identity (reason : String)
  /-- There is no request that could be sent to the backend. -/
  | invalidRequest (reason : UriError)
deriving DecidableEq, Repr

namespace GatewayError

/-- The wording of a cause. -/
def message : GatewayError → String
  | unsupportedTransferEncoding value => "unsupported request transfer-encoding: " ++ value
  | unsupportedVersion version => "unsupported HTTP version: " ++ version.text
  | chunkedNotSupported version =>
    "chunked response cannot be relayed to a " ++ version.text ++ " client"
  | unsupportedResponseEncoding value => "unsupported response transfer-encoding: " ++ value
  | backend reason => "backend transport failure: " ++ reason
  | backendBody reason => "backend body failure: " ++ reason
  | timeout limit => "backend call timed out after " ++ limit.text
  | circuitOpen mapping => "circuit open for mapping '" ++ mapping ++ "'"
  | identity reason => "identity provider call failed: " ++ reason
  | invalidRequest reason => "invalid backend request: " ++ reason.message

/-- The status that the browser gets to see (`status_code`). -/
def status : GatewayError → Status
  | unsupportedTransferEncoding _ => .badRequest
  | unsupportedVersion _ | chunkedNotSupported _ | unsupportedResponseEncoding _ => .notImplemented
  | timeout _ => .gatewayTimeout
  | circuitOpen _ => .serviceUnavailable
  | backend _ | backendBody _ | identity _ | invalidRequest _ => .internalError

/-- The answer that the browser gets (`into_response`). -/
def response (e : GatewayError) : Response := .ofStatus e.status

end GatewayError
end AccessGateway

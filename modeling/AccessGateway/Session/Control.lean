import AccessGateway.Encoding.Form
import AccessGateway.Session.State

/-!
# Control commands

Backends and identity providers steer a session with commands inside one reserved cookie.  The
cookie's value is form-encoded as a whole; decoded, it is a row of `KEY=value` with `&` between
them, and every value is form-encoded once more.  What is not exactly a known key with one `=` is
passed over.
-/

set_option autoImplicit false

namespace AccessGateway

/-- A command to a session. -/
inductive Command where
  /-- Grant the listed roles. -/
  | addCredentials (roles : String)
  /-- Take all roles away, then grant the listed ones. -/
  | setCredentials (roles : String)
  /-- Remember a token for audit records. -/
  | auditToken (token : String)
  /-- End the session. -/
  | endSession (reason : String)
deriving DecidableEq, Repr

namespace Command

/-- The name of the reserved cookie (`CONTROL_COOKIE`). -/
def cookieName : String := "AL_CONTROL"

/-- The command that a key in capital letters stands for. -/
def ofKey? (key value : String) : Option Command :=
  if key = "ADD_CREDENTIALS" then some (.addCredentials value)
  else if key = "SET_CREDENTIALS" then some (.setCredentials value)
  else if key = "AUDIT_TOKEN" then some (.auditToken value)
  else if key = "SESSION" then some (.endSession value)
  else none

/-- Undoes form encoding (`url_decode`). -/
def unescape (cs : List Char) : List Char := Form.decode (Utf8.encode cs)

/-- Reads one piece between `&`. -/
def ofPiece? (piece : List Char) : Option Command :=
  match Text.fields '=' piece with
  | [key, value] => ofKey? (Text.toUpper (String.ofList key)) (String.ofList (unescape value))
  | _ => none

/-- Reads the value of the reserved cookie (`parse_commands`). -/
def parse (raw : String) : List Command :=
  (Text.fields '&' (unescape raw.toList)).filterMap ofPiece?

/-- Carries out commands in order, up to the first one that ends the session (`apply`); says whether
there was one. -/
def run (s : Session) (now : Instant) : List Command → Session × Bool
  | [] => (s, false)
  | .addCredentials roles :: rest => run (s.addRoles (Role.parseList roles now)) now rest
  | .setCredentials roles :: rest => run (s.clearRoles.addRoles (Role.parseList roles now)) now rest
  | .auditToken token :: rest => run { s with auditToken := some token } now rest
  | .endSession _ :: _ => (s, true)

end Command
end AccessGateway

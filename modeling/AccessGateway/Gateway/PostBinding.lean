import AccessGateway.Federation.Saml
import AccessGateway.Gateway.Dispatch

/-!
# The SAML endpoint

An identity provider lets the browser post an assertion to an address under a fixed path.  The
assertion is kept in the session as a bearer token, and the browser is sent on to the address
without that path.
-/

set_option autoImplicit false

namespace AccessGateway.PostBinding

/-- The field that holds the assertion. -/
def parameter : String := "SAMLResponse"

/-- The largest body that is read (`MAX_FORM_BYTES`). -/
def maxFormBytes : Nat := 1048576

/-- The address behind the endpoint's path (`target_location`). -/
def targetLocation (path root : String) : String :=
  match root.toList.isPrefixOf? path.toList with
  | some rest => if rest.head? = some '/' then String.ofList rest else String.ofList ('/' :: rest)
  | none => path

/-- The body of a post, unless it is too large or breaks off. -/
def form? (b : Body) : Option Bytes :=
  match b.collected with
  | .ok bytes => if bytes.length ≤ maxFormBytes then some bytes else none
  | .error _ => none

/-- The posted text, from the query or else from the body (`form_param`). -/
def posted? (target : Uri) (form : Bytes) : Option String :=
  target.query?.bind (fun query => Form.lookup? parameter (Bytes.ofText query)) <|>
    Form.lookup? parameter form

/-- The bearer value of the assertion in a posted text. -/
def bearer? (posted : String) : Option HeaderValue :=
  if Saml.isToken posted then (Saml.extract? posted).bind HeaderValue.ofBearer? else none

/-- Keeps a posted assertion in a session. -/
def keep (s : Session) (posted : Option String) : Session :=
  match posted.bind bearer? with
  | some value => { s with headers := s.headers.store .authorization value }
  | none => s

/-- Serves a post to the endpoint under `root` (`saml_post_binding`). -/
def handle (g : Gateway) (w : Surroundings) (root : String) (r : Request) : Exchange :=
  match form? r.body with
  | none => ⟨g, some (.ofStatus .badRequest), [], [], [], []⟩
  | some form =>
    let (g, found, opened) := g.sessionFor w r.headers
    let g := g.save found.id (keep found.session (posted? r.target form))
    let response :=
      match HeaderValue.ofText? (targetLocation r.target.path root) with
      | none => .ofStatus .badRequest
      | some location =>
        let response := (Response.ofStatus .found).setHeader .location location
        if found.created then
          response.addCookie (BrowserCookie.session g.cookieName found.id)
        else response
    ⟨g, some response, [], [], [], opened⟩

end AccessGateway.PostBinding

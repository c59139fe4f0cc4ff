import AccessGateway.Document.Json
import AccessGateway.Encoding.Form
import AccessGateway.Wire.Message

/-!
# Identity providers

A provider is asked by posting a form.  There are two forms: the one-shot grant, which names the
mapping and carries some of the browser's header fields, and the exchange of an assertion for a
token.  Of the answer, the status, the cookies and the body count.
-/

set_option autoImplicit false

namespace AccessGateway

/-- A form that is posted to an identity provider. -/
structure ProviderCall where
  url : String
  /-- Fields of the browser's request that go along. -/
  headers : Headers
  form : List (String × String)
deriving DecidableEq, Repr

/-- What is exchanged for a token, and who asks for it. -/
structure TokenGrant where
  subjectToken : String
  subjectIssuer : String
  clientId : String
  clientSecret : String
deriving DecidableEq, Repr

namespace ProviderCall

/-- Asks for a one-shot grant for a mapping (`one_shot`). -/
def oneShot (url mapping : String) (headers : Headers) : ProviderCall :=
  ⟨url, headers, [("grant_type", "password"), ("client_id", mapping)]⟩

/-- The kind of grant that exchanges a token. -/
def exchangeGrant : String := "urn:ietf:params:oauth:grant-type:token-exchange"

/-- The kind of token that is exchanged. -/
def samlTokenType : String := "urn:ietf:params:oauth:token-type:saml2"

/-- Asks for a token in exchange for an assertion (`token_exchange`). -/
def exchange (url : String) (grant : TokenGrant) : ProviderCall :=
  ⟨url, .empty,
    [("grant_type", exchangeGrant), ("subject_token_type", samlTokenType),
      ("subject_token", grant.subjectToken), ("subject_issuer", grant.subjectIssuer),
      ("client_id", grant.clientId), ("client_secret", grant.clientSecret)]⟩

/-- The posted body. -/
def body (c : ProviderCall) : String := Form.write c.form

end ProviderCall

/-- The answer of a provider. -/
structure ProviderAnswer where
  status : Status
  setCookies : List HeaderValue
  body : Bytes
deriving DecidableEq, Repr

/-- The token in an answer (`access_token`): the status is 200, and the body is a record with a text
in the field `access_token` that is not empty. -/
def ProviderAnswer.accessToken? (a : ProviderAnswer) : Option String :=
  if a.status = .ok then
    match (Json.parse? a.body).bind (·.fields? ["access_token"]) with
    | some [some token] => token.text?.filter (· ≠ "")
    | _ => none
  else none

end AccessGateway

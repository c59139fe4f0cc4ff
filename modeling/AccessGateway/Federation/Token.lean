import AccessGateway.Federation.KeySet
import AccessGateway.Text.Blank
import AccessGateway.Text.Split

/-!
# Signed tokens

A token has three parts with points between them: a header, claims and a signature, each in base64
without padding.  The header names the algorithm and the key.  The rules for a token say which
algorithms are taken, whether the end of its time counts and which audience it must be meant for.
A claim that is missing, or is of no use, is not held against the token.
-/

set_option autoImplicit false

namespace AccessGateway

/-- What is asked of a token. -/
structure TokenRules where
  algorithms : List String
  /-- How many seconds clocks may differ. -/
  leeway : Nat
  checksEnd : Bool
  checksStart : Bool
  requiredClaims : List String
  audience : Option String
deriving DecidableEq, Repr

/-- The rules for an audience (`validation_for`); a blank one is none. -/
def TokenRules.forAudience (audience : Option String) : TokenRules :=
  { algorithms := ["RS256"]
    leeway := 60
    checksEnd := true
    checksStart := false
    requiredClaims := []
    audience := (audience.map Text.trimmed).filter (· ≠ "") }

/-- The header of a token. -/
structure TokenHeader where
  algorithm : String
  keyId : Option String
deriving DecidableEq, Repr

/-- The parts of a token. -/
structure Token where
  header : TokenHeader
  /-- The base64 text of the claims. -/
  claims : List Char
  /-- What the signature is made for. -/
  signed : Bytes
  /-- The base64 text of the signature. -/
  signature : List Char
deriving DecidableEq, Repr

namespace TokenHeader

/-- The algorithms that a header may name. -/
def algorithms : List String := PublishedKey.signing

/-- The fields of a header in their order. -/
def fieldNames : List String :=
  ["typ", "alg", "cty", "jku", "jwk", "kid", "x5u", "x5c", "x5t", "x5t#S256"]

/-- The fields of a header that are texts, may be missing, and say nothing here. -/
def plainFields : List String := ["typ", "cty", "jku", "kid", "x5u", "x5t", "x5t#S256"]

/-- Reads a header from its base64 text (`decode_header`).  One of the 127 levels of the message is
around a key. -/
def parse? (encoded : List Char) : Option TokenHeader := do
  let message ← Json.parse? (← Base64.decode? Base64.urlSafe encoded)
  let j := message.named fieldNames
  let algorithm ← j.memberChoice? "alg"
  if algorithms.contains algorithm && plainFields.all (j.memberFits Json.isText) &&
      j.memberFits Json.isTextList "x5c" &&
      j.memberFits (fun item => (PublishedKey.parse? 126 item).isSome) "jwk" then
    some ⟨algorithm, j.memberText? "kid"⟩
  else none

end TokenHeader

/-- Takes a token apart. -/
def Token.parse? (text : String) : Option Token := do
  let (signed, signature) ← Text.cutLast? '.' text.toList
  let (header, claims) ← Text.cutLast? '.' signed
  some ⟨← TokenHeader.parse? header, claims, Utf8.encode signed, signature⟩

/-- The claims of a token as a message; it has to be one that can be kept whole. -/
def Token.payload? (t : Token) : Option Json := do
  let j ← Json.parse? (← Base64.decode? Base64.urlSafe t.claims)
  if j.isKeepable 127 then some j else none

/-- The claims of a token that count; nothing stands for one that is missing or of no use. -/
structure TokenClaims where
  /-- The second at which the token ends. -/
  ends : Option Nat
  /-- The second from which on the token holds. -/
  starts : Option Nat
  subject : Option String
  issuers : Option (List String)
  /-- Whom the token is meant for. -/
  audiences : Option (List String)
deriving DecidableEq, Repr

namespace TokenClaims

/-- The usual claims in their order. -/
def fieldNames : List String := ["exp", "nbf", "sub", "iss", "aud"]

/-- A number of seconds: any number from zero on below `2 ^ 64`, rounded to the nearest whole
number, the greater one of two. -/
def seconds? (x : Rat) : Option Nat :=
  if 0 ≤ x ∧ x < UInt64.size then some (x + 1 / 2).floor.toNat else none

/-- The number of seconds that a claim tells. -/
def date? : Option Json → Option Nat
  | some (.number digits) => (Binary64.ofLiteral? digits).bind seconds?
  | _ => none

/-- The names that a claim tells, one or a list. -/
def names? : Option Json → Option (List String)
  | some (.string raw) => (Json.rawText? raw).map ([·])
  | some (.array items) => items.mapM Json.text?
  | _ => none

/-- A list or an object with something in it.  It hides what comes after it when it stands for a
time. -/
def isFilled : Option Json → Bool
  | some (.array (_ :: _)) | some (.object (_ :: _)) => true
  | _ => false

/-- A list or an object.  It hides what comes after it when it stands for a subject. -/
def isCompound : Option Json → Bool
  | some (.array _) | some (.object _) => true
  | _ => false

/-- A claim of a payload by its name; `none` inside if it is absent.  A payload may be a list that
has all the usual claims in their order. -/
def claim? (payload : Json) (name : String) : Option (Option Json) :=
  (payload.named fieldNames).member? name

/-- Reads claims.  None of the usual ones may be there twice. -/
def ofPayload? (payload : Json) : Option TokenClaims := do
  let ends ← claim? payload "exp"
  let starts ← claim? payload "nbf"
  let subject ← claim? payload "sub"
  let issuer ← claim? payload "iss"
  let audience ← claim? payload "aud"
  if isFilled ends || isFilled starts || isCompound subject then none
  else
    some ⟨date? ends, date? starts, subject.bind Json.text?, names? issuer, names? audience⟩

/-- Whether a claim that may be asked for is there; others are not asked for. -/
def has (c : TokenClaims) (claim : String) : Bool :=
  if claim = "exp" then c.ends.isSome
  else if claim = "nbf" then c.starts.isSome
  else if claim = "sub" then c.subject.isSome
  else if claim = "iss" then c.issuers.isSome
  else if claim = "aud" then c.audiences.isSome
  else true

/-- Whether claims fulfil the rules at a second. -/
def fulfil (c : TokenClaims) (rules : TokenRules) (now : Nat) : Bool :=
  rules.requiredClaims.all c.has &&
    (!rules.checksEnd || c.ends.all fun t => now - rules.leeway ≤ t) &&
    (!rules.checksStart || c.starts.all fun t => t ≤ now + rules.leeway) &&
    match rules.audience, c.audiences with
    | some wanted, some given => given.contains wanted
    | _, _ => true

end TokenClaims

/-- Whether the signature of a token is one under a key, by an algorithm that is taken. -/
def Token.isSignedBy (t : Token) (key : VerificationKey) (rules : TokenRules) : Bool :=
  match key, Base64.decode? Base64.urlSafe t.signature with
  | .rsa key, some signature =>
    rules.algorithms.contains t.header.algorithm && key.verifies t.signed signature
  | _, _ => false

/-- Whether a token holds under a key. -/
def Token.holds (t : Token) (key : VerificationKey) (rules : TokenRules) (now : Nat) : Bool :=
  t.isSignedBy key rules &&
    (t.payload?.bind TokenClaims.ofPayload?).any (·.fulfil rules now)

end AccessGateway

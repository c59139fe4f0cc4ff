import AccessGateway.Federation.Token
import AccessGateway.Wire.Message

/-!
# Verifying tokens

Tokens are verified with published keys.  Keys are kept under the address and id they were
published with; only a key that is not kept is fetched, once, with all others of its address.
-/

set_option autoImplicit false

namespace AccessGateway

/-- A token that is to be verified with the keys of an address. -/
structure TokenCheck where
  token : String
  certificateUrl : String
  audience : Option String
deriving DecidableEq, Repr

/-- What comes from an address where keys are published. -/
structure KeyAnswer where
  status : Status
  body : Bytes
deriving DecidableEq, Repr

/-- The keys that are kept, the latest first (`JwksVerifier`). -/
structure KeyCache where
  entries : List ((String × String) × VerificationKey)
deriving DecidableEq, Repr

/-- The outcome of a verification. -/
structure Verification where
  cache : KeyCache
  accepted : Bool
  /-- The addresses that keys were fetched from. -/
  fetched : List String
deriving DecidableEq, Repr

namespace KeyCache

/-- Nothing is kept. -/
def empty : KeyCache := ⟨[]⟩

instance : Inhabited KeyCache := ⟨empty⟩

/-- The key that is kept under an address and id. -/
def find? (c : KeyCache) (url id : String) : Option VerificationKey :=
  (c.entries.find? (·.1 = (url, id))).map (·.2)

/-- Keeps a key. -/
def insert (c : KeyCache) (url id : String) (key : VerificationKey) : KeyCache :=
  ⟨((url, id), key) :: c.entries.filter (·.1 ≠ (url, id))⟩

/-- Keeps a published key, if it has an id and can be used. -/
def keep (url : String) (c : KeyCache) (k : PublishedKey) : KeyCache :=
  match k.id, k.key with
  | some id, some key => c.insert url id key
  | _, _ => c

/-- The keys of an answer (`fetch`); a refusal has none. -/
def keysOf? (a : KeyAnswer) : Option (List PublishedKey) :=
  if 400 ≤ a.status.code ∧ a.status.code < 600 then none else PublishedKey.parseSet? a.body

/-- Finds a key, fetching the keys of its address if it is not kept (`key_for`). -/
def keyFor (c : KeyCache) (fetch : String → Option KeyAnswer) (url id : String) :
    KeyCache × Option VerificationKey × List String :=
  match c.find? url id with
  | some key => (c, some key, [])
  | none =>
    match (fetch url).bind keysOf? with
    | none => (c, none, [url])
    | some keys =>
      let c := keys.foldl (keep url) c
      (c, c.find? url id, [url])

/-- Verifies a token at a second. -/
def verify (c : KeyCache) (fetch : String → Option KeyAnswer) (now : Nat) (check : TokenCheck) :
    Verification :=
  match Token.parse? check.token with
  | none => ⟨c, false, []⟩
  | some t =>
    match t.header.keyId with
    | none => ⟨c, false, []⟩
    | some id =>
      match c.keyFor fetch check.certificateUrl id with
      | (c, none, fetched) => ⟨c, false, fetched⟩
      | (c, some key, fetched) => ⟨c, t.holds key (.forAudience check.audience) now, fetched⟩

/-- The keys that are kept after tokens were verified. -/
def afterChecks (c : KeyCache) (fetch : String → Option KeyAnswer) (now : Nat)
    (checks : List TokenCheck) : KeyCache :=
  checks.foldl (fun c check => (c.verify fetch now check).cache) c

end KeyCache
end AccessGateway

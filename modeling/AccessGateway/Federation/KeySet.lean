import AccessGateway.Document.Binary64
import AccessGateway.Encoding.Base64
import AccessGateway.Federation.Rsa

/-!
# Published keys

A provider publishes its keys as a JSON message with the list `keys`.  A key has a type, the
numbers that its type needs, and perhaps an id.  One key that cannot be read makes the whole set
unreadable; a key whose numbers are no base64 is in the set, but cannot be used.
-/

set_option autoImplicit false

namespace AccessGateway

/-- A key that signatures can be checked with.  Of keys other than RSA ones, nothing is kept. -/
inductive VerificationKey where
  | rsa (key : Rsa.PublicKey)
  | otherFamily
deriving DecidableEq, Repr

/-- A key of a set: its id, and the key itself if it can be used. -/
structure PublishedKey where
  id : Option String
  key : Option VerificationKey
deriving DecidableEq, Repr

namespace Json

/-- A record as an object: one that is given as a list of all its fields gets their names by the
order of the fields. -/
def named (order : List String) : Json → Json
  | .array items =>
    if items.length = order.length then .object ((order.map Bytes.ofText).zip items)
    else .array items
  | j => j

/-- A name out of a fixed row: a text, or an object that has nothing but a member with this name,
which is `null`. -/
def choice? : Json → Option String
  | .object [(raw, .null)] => rawText? raw
  | j => j.text?

/-- A member of an object that occurs at most once; `none` inside if it is absent.  All names of the
object have to be texts. -/
def member? (j : Json) (name : String) : Option (Option Json) :=
  match j with
  | .object members => do
    let named ← members.mapM fun (raw, item) => (rawText? raw).map (·, item)
    match named.filter (·.1 = name) with
    | [] => some none
    | [(_, item)] => some (some item)
    | _ => none
  | _ => none

/-- Whether a member is absent, `null`, or accepted by `accepts`. -/
def memberFits (j : Json) (accepts : Json → Bool) (name : String) : Bool :=
  match j.member? name with
  | some none | some (some .null) => true
  | some (some item) => accepts item
  | none => false

/-- Whether a value is a text. -/
def isText (j : Json) : Bool := j.text?.isSome

/-- Whether a value is a list of texts. -/
def isTextList : Json → Bool
  | .array items => items.all isText
  | _ => false

/-- The text of a member. -/
def memberText? (j : Json) (name : String) : Option String := do (← (← j.member? name)).text?

/-- The name out of a fixed row that a member is. -/
def memberChoice? (j : Json) (name : String) : Option String := do
  (← (← j.member? name)).choice?

/-- The bytes of a member that is a base64 text without padding. -/
def memberBytes? (j : Json) (name : String) : Option Bytes := do
  match ← (← j.member? name) with
  | .string raw => Base64.decode? Base64.urlSafe (← Utf8.decode? (← unescape? raw))
  | _ => none

end Json

namespace PublishedKey

/-- The algorithms that sign. -/
def signing : List String :=
  ["HS256", "HS384", "HS512", "ES256", "ES384", "RS256", "RS384", "RS512", "PS256", "PS384",
    "PS512", "EdDSA"]

/-- The algorithms that a key may name. -/
def algorithms : List String := signing ++ ["RSA1_5", "RSA-OAEP", "RSA-OAEP-256"]

/-- The curves that a key may name. -/
def curves : List String := ["P-256", "P-384", "P-521", "Ed25519"]

/-- Whether a member is one of the given names. -/
def isOneOf (j : Json) (names : List String) (member : String) : Bool :=
  (j.memberChoice? member).any names.contains

/-- The key itself: nothing if the type is unknown or a number is missing. -/
def material? (j : Json) : Option (Option VerificationKey) :=
  let texts (names : List String) : Bool := names.all fun name => (j.memberText? name).isSome
  let decoded (names : List String) : Option VerificationKey :=
    if names.all fun name => (j.memberBytes? name).isSome then some .otherFamily else none
  match j.memberChoice? "kty" with
  | some "EC" => if isOneOf j curves "crv" && texts ["x", "y"] then some (decoded ["x", "y"])
    else none
  | some "RSA" =>
    if texts ["n", "e"] then
      some do
        let modulus ← j.memberBytes? "n"
        let exponent ← j.memberBytes? "e"
        some (.rsa ⟨modulus, exponent⟩)
    else none
  | some "oct" => if texts ["k"] then some (decoded ["k"]) else none
  | some "OKP" => if isOneOf j curves "crv" && texts ["x"] then some (decoded ["x"]) else none
  | _ => none

/-- Reads a key that has at most so many levels. -/
def parse? (depth : Nat) (j : Json) : Option PublishedKey :=
  if j.isKeepable depth &&
      ["use", "kid", "x5u", "x5t", "x5t#S256"].all (j.memberFits Json.isText) &&
      ["key_ops", "x5c"].all (j.memberFits Json.isTextList) &&
      j.memberFits (fun item => item.choice?.any algorithms.contains) "alg" then
    (material? j).map fun key => ⟨j.memberText? "kid", key⟩
  else none

/-- Reads a set of keys.  Of the 127 levels of the message, two are around a key. -/
def parseSet? (message : Bytes) : Option (List PublishedKey) := do
  match ← (← Json.parse? message).fields? ["keys"] with
  | [some (.array items)] => items.mapM (parse? 125)
  | _ => none

end PublishedKey
end AccessGateway

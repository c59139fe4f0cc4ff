import AccessGateway.Session.Control

/-!
# Harvesting cookies

The `Set-Cookie` fields of an answer are gone through before it goes on: control cookies are
obeyed and kept back, all others are sent on and stored in the cookie jar, unless a command ended
the session.
-/

set_option autoImplicit false

namespace AccessGateway

/-- What came of the fields of one answer. -/
structure Harvest where
  /-- The fields to send on, in order. -/
  forward : List HeaderValue
  /-- How many cookies went into the jar. -/
  stored : Nat
  /-- A command ended the session. -/
  loggedOut : Bool
deriving DecidableEq, Repr

namespace Harvest

/-- How a field is to be treated. -/
inductive Field where
  /-- No plain text: sent on, not stored. -/
  | opaqueBytes
  /-- A control cookie with its value. -/
  | control (value : String)
  /-- Any other text: sent on, and stored if it is a cookie. -/
  | regular (text : String)
deriving DecidableEq, Repr

/-- Sorts a field. -/
def classify (value : HeaderValue) : Field :=
  match value.text? with
  | none => .opaqueBytes
  | some text =>
    match Cookie.parse? text with
    | some c => if c.name = Command.cookieName then .control c.value else .regular text
    | none => .regular text

/-- The state between two fields: the session, the fields to send on, the texts to store, and
whether the session was ended. -/
structure Progress where
  session : Session
  forward : List HeaderValue
  regular : List String
  loggedOut : Bool
deriving DecidableEq, Repr

/-- Treats one field.  After the end of the session control cookies are only kept back. -/
def Progress.step (now : Instant) (p : Progress) (value : HeaderValue) : Progress :=
  match classify value with
  | .opaqueBytes => { p with forward := p.forward ++ [value] }
  | .regular text => { p with forward := p.forward ++ [value], regular := p.regular ++ [text] }
  | .control commands =>
    if p.loggedOut then p
    else match Command.run p.session now (Command.parse commands) with
      | (session, true) => { p with session := session.destroy, loggedOut := true }
      | (session, false) => { p with session }

/-- Goes through the fields of an answer that came for the part of the site under `root`
(`harvest_set_cookies`). -/
def run (session : Session) (root : String) (values : List HeaderValue) (now : Instant) :
    Session × Harvest :=
  let p := values.foldl (Progress.step now) ⟨session, [], [], false⟩
  if p.loggedOut then (p.session, ⟨p.forward, 0, true⟩)
  else
    let (cookies, stored) := p.session.cookies.storeAll root p.regular
    ({ p.session with cookies }, ⟨p.forward, stored, false⟩)

end Harvest
end AccessGateway

import AccessGateway.Gateway.PostBinding
import AccessGateway.Gateway.RequestId

/-!
# Routing

Every path that starts with a slash goes to the dispatcher, but posts under the SAML endpoint's
path go to that endpoint.  The endpoint's path is a pattern: `\x7bname\x7d` in it stands for any
piece of a path up to the next slash, and doubled braces for single ones.  A pattern that cannot be
read, or that would take the place of the dispatcher's, makes it impossible to start.

A routed answer gets the id of its request, and its length if it is known.  An answer to `HEAD`
loses its body after that.
-/

set_option autoImplicit false

namespace AccessGateway

/-- A piece of a path pattern. -/
inductive PatternPiece where
  | literal (c : Char)
  /-- Any non-empty text without a slash. -/
  | parameter
deriving DecidableEq, Repr

namespace PathPattern

/-- The brace that opens a parameter. -/
def opening : Char := '\x7b'

/-- The brace that closes a parameter. -/
def closing : Char := '\x7d'

/-- Reads the pieces of a pattern.  A parameter has a name without star and slash, and ends the
piece between two slashes. -/
def pieces? (cs : List Char) : Option (List PatternPiece) :=
  match cs with
  | [] => some []
  | [c] => if c = opening ∨ c = closing then none else some [.literal c]
  | c :: d :: rest =>
    if c = opening ∧ d = opening ∨ c = closing ∧ d = closing then
      (pieces? rest).map (.literal c :: ·)
    else if c = closing then none
    else if c = opening then
      let name := (d :: rest).takeWhile (· ≠ closing)
      if name = [] ∨ name.contains '*' ∨ name.contains '/' ∨ rest.length < name.length ∨
          (rest.drop name.length).head?.any (· ≠ '/') then none
      else (pieces? (rest.drop name.length)).map (.parameter :: ·)
    else (pieces? (d :: rest)).map (.literal c :: ·)
termination_by cs.length
decreasing_by all_goals simp only [List.length_cons, List.length_drop]; omega

/-- Reads the endpoint's path: it starts with a slash, no piece of it starts with a colon or a star,
and it does not take the place of the dispatcher's pattern. -/
def parse? (root : String) : Option (List PatternPiece) :=
  let fields := Text.fields '/' root.toList
  if fields.any fun field => field.head? = some ':' ∨ field.head? = some '*' then none
  else
    match pieces? root.toList with
    | some (.literal '/' :: .parameter :: _) => none
    | some (.literal '/' :: rest) => some (.literal '/' :: rest)
    | _ => none

/-- Whether a path is an instance of a pattern, followed by a slash and at least one character. -/
def covers : List PatternPiece → List Char → Bool
  | [], '/' :: rest => rest ≠ []
  | .literal c :: ps, d :: ds => c = d && covers ps ds
  | .parameter :: ps, cs =>
    let piece := cs.takeWhile (· ≠ '/')
    piece ≠ [] && covers ps (cs.drop piece.length)
  | _, _ => false

end PathPattern

/-- Where a request goes. -/
inductive Route where
  | dispatcher
  /-- The SAML endpoint's path, but another method. -/
  | besideBinding
  | binding (root : String)
  | nowhere
deriving DecidableEq, Repr

/-- The SAML endpoint's path without slashes at its end, and its pattern, if there is an
endpoint. -/
structure Router where
  binding : Option (String × List PatternPiece)
deriving DecidableEq, Repr

namespace Router

/-- The text without the slashes it ends with. -/
def trimSlashes (path : String) : String :=
  String.ofList (path.toList.reverse.dropWhile (· = '/')).reverse

/-- The router that the settings describe (`router`). -/
def ofSettings? (s : SamlSettings) : Option Router :=
  match s.postBindingPath with
  | none => some ⟨none⟩
  | some path =>
    let root := trimSlashes path
    (PathPattern.parse? root).map fun pattern => ⟨some (root, pattern)⟩

/-- Finds the way of a request. -/
def route (router : Router) (method : Method) (path : String) : Route :=
  if path.toList.head? ≠ some '/' then .nowhere
  else match router.binding with
    | none => .dispatcher
    | some (root, pattern) =>
      if PathPattern.covers pattern path.toList then
        if method = .post then .binding root else .besideBinding
      else .dispatcher

end Router

/-- A gateway with its router. -/
structure Server where
  router : Router
  gateway : Gateway
deriving DecidableEq, Repr

namespace Server

/-- The server that the settings describe, listening at a port; nothing if its routes clash. -/
def start? (s : Settings) (localPort : Nat) : Option Server :=
  (Router.ofSettings? s.saml).map fun router => ⟨router, .ofSettings s localPort⟩

/-- The methods of the SAML endpoint, told to others. -/
def allowed : HeaderName := ⟨"allow"⟩

/-- Tells the length of an answer, if it is known, and drops the body of an answer to `HEAD`. -/
def finish (method : Method) (r : Response) : Response :=
  if method.text = "CONNECT" ∧ r.status.isSuccess then
    if r.headers.has .contentLength ∨ r.headers.has .transferEncoding ∨
        (!r.streamed ∧ r.body.content ≠ []) then
      { r with body := .empty, streamed := false }
    else r
  else
    let r :=
      if r.streamed ∨ r.headers.has .contentLength then r
      else r.setHeader .contentLength (.ofNat r.body.content.length)
    if method = .head then { r with body := .empty, streamed := false } else r

/-- Serves a request from its arrival to its answer. -/
def answer (s : Server) (w : Surroundings) (r : Request) : Server × Exchange × Response :=
  let r := RequestId.assign w.freshRequest r
  let route := s.router.route r.method r.target.path
  let x : Exchange := match route with
    | .dispatcher | .besideBinding => s.gateway.dispatch w r
    | .binding root => PostBinding.handle s.gateway w root r
    | .nowhere => ⟨s.gateway, some (.ofStatus .notFound), [], [], [], []⟩
  let response := RequestId.echo r.headers (x.response.getD (.ofStatus .requestTimeout))
  let response :=
    if route = .besideBinding ∧ !response.headers.has allowed then
      response.setHeader allowed ⟨Bytes.ofText "POST"⟩
    else response
  ({ s with gateway := x.gateway }, x, finish r.method response)

end Server
end AccessGateway

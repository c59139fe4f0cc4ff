import AccessGateway.Gateway.Error
import AccessGateway.Relay.Pump
import AccessGateway.Relay.Reconcile
import AccessGateway.Text.Blank
import AccessGateway.Text.Number

/-!
# Relaying answers

The framing of a backend's answer decides how its body travels on: chunks and bodies of a known
length are passed on as they come, all others are read to their end first, so that the length can
be told.  A body that fails while it is read leaves no answer at all.
-/

set_option autoImplicit false

namespace AccessGateway

/-- How the body of an answer travels. -/
inductive BodyMode where
  /-- The backend sends chunks. -/
  | chunked
  /-- The backend told the length. -/
  | contentLength (n : Nat)
  /-- The backend told nothing. -/
  | buffered
deriving DecidableEq, Repr

/-- A transfer encoding without the blanks around it; empty if it is no plain text. -/
def HeaderValue.encodingText (value : HeaderValue) : String :=
  Text.trimmed (value.text?.getD "")

/-- The only transfer encoding that is understood. -/
def HeaderValue.isChunked (value : HeaderValue) : Bool :=
  Text.eqIgnoreCase value.encodingText "chunked"

/-- Whether a browser with this version can take chunks (`supports_chunked`). -/
def Version.takesChunks (v : Version) : Bool := v = .http11 || v = .http2

/-- How the body of an answer with these fields travels to a browser (`body_mode`). -/
def BodyMode.of (headers : Headers) (frontend : Version) : Except GatewayError BodyMode :=
  match headers.first? .transferEncoding with
  | some value =>
    if !value.isChunked then .error (.unsupportedResponseEncoding value.encodingText)
    else if !frontend.takesChunks then .error (.chunkedNotSupported frontend)
    else .ok .chunked
  | none =>
    let length := (headers.first? .contentLength).bind fun value =>
      value.text?.bind fun text => Text.word? UInt64.size (Text.trim text.toList)
    .ok (length.elim .buffered .contentLength)

/-- Answers that never have a body (`is_bodiless`). -/
def Status.isBodiless (s : Status) (method : Method) : Bool :=
  method = .head || s.isInformational || s = .noContent || s = .notModified

/-- The value that tells a length. -/
def HeaderValue.ofNat (n : Nat) : HeaderValue := ⟨Bytes.ofText (Text.decimal n)⟩

namespace Response

/-- Takes the cookies out of an answer (`take_set_cookies`). -/
def takeSetCookies (headers : Headers) : List HeaderValue × Headers :=
  (headers.values .setCookie, headers.erase .setCookie)

/-- Whether the body of an answer is read to its end before anything goes on. -/
def isGathered (backend : Response) (frontend : Version) (method : Method) : Bool :=
  match BodyMode.of backend.headers frontend with
  | .ok .buffered => !backend.status.isBodiless method
  | _ => false

/-- The answer to the browser that comes of a backend's answer (`relay`). -/
def relay (backend : Response) (frontend : Version) (method : Method) (now : Timestamp) :
    Except GatewayError Response := do
  let mode ← BodyMode.of backend.headers frontend
  let headers := Reconcile.headers backend.headers now
  match mode with
  | .chunked | .contentLength _ =>
    .ok { backend with
      headers, body := backend.body.pumped, streamed := !backend.body.isAtEnd }
  | .buffered =>
    if backend.status.isBodiless method then
      .ok { backend with headers, body := .empty, streamed := false }
    else match backend.body.collected with
      | .error reason => .error (.backendBody reason)
      | .ok bytes =>
        .ok { backend with
          headers := headers.insert .contentLength (.ofNat bytes.length)
          body := .ofBytes bytes
          streamed := false }

end Response
end AccessGateway

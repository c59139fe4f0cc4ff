import AccessGateway.Wire.Header
import AccessGateway.Wire.Uri

/-!
# Messages

Requests and responses as they travel: protocol versions, methods, status codes, and bodies.  A
body is a finite row of frames, which may break off with a failure.
-/

set_option autoImplicit false

namespace AccessGateway

/-- The version of the protocol. -/
inductive Version where
  | http09
  | http10
  | http11
  | http2
  | http3
deriving DecidableEq, Repr

/-- The written form of a version. -/
def Version.text : Version → String
  | .http09 => "HTTP/0.9"
  | .http10 => "HTTP/1.0"
  | .http11 => "HTTP/1.1"
  | .http2 => "HTTP/2.0"
  | .http3 => "HTTP/3.0"

/-- All versions. -/
def Version.all : List Version := [.http09, .http10, .http11, .http2, .http3]

/-- A request method; capital and small letters differ. -/
structure Method where
  text : String
deriving DecidableEq, Repr

namespace Method

/-- Reads a method: a non-empty token. -/
def parse? (s : String) : Option Method :=
  if s.toList ≠ [] ∧ s.toList.all Text.isTokenChar then some ⟨s⟩ else none

def get : Method := ⟨"GET"⟩
def head : Method := ⟨"HEAD"⟩
def post : Method := ⟨"POST"⟩

end Method

/-- A status code of three digits. -/
structure Status where
  code : Nat
deriving DecidableEq, Repr

namespace Status

/-- Reads a status code. -/
def ofNat? (n : Nat) : Option Status := if 100 ≤ n ∧ n < 1000 then some ⟨n⟩ else none

def ok : Status := ⟨200⟩
def noContent : Status := ⟨204⟩
def found : Status := ⟨302⟩
def notModified : Status := ⟨304⟩
def badRequest : Status := ⟨400⟩
def unauthorized : Status := ⟨401⟩
def forbidden : Status := ⟨403⟩
def notFound : Status := ⟨404⟩
def requestTimeout : Status := ⟨408⟩
def internalError : Status := ⟨500⟩
def notImplemented : Status := ⟨501⟩
def serviceUnavailable : Status := ⟨503⟩
def gatewayTimeout : Status := ⟨504⟩

/-- Codes from 100 to 199. -/
def isInformational (s : Status) : Bool := s.code / 100 = 1

/-- Codes from 200 to 299. -/
def isSuccess (s : Status) : Bool := s.code / 100 = 2

/-- Codes from 500 to 599. -/
def isServerError (s : Status) : Bool := s.code / 100 = 5

end Status

/-- A piece of a body. -/
inductive Frame where
  | data (bytes : Bytes)
  | trailers (headers : Headers)
deriving DecidableEq, Repr

/-- The bytes of a frame that is no trailer. -/
def Frame.bytes : Frame → Bytes
  | .data bs => bs
  | .trailers _ => []

/-- A row of frames, after which the body ends or fails with a text. -/
structure Body where
  frames : List Frame
  failure : Option String
deriving DecidableEq, Repr

namespace Body

/-- The body without any frame. -/
def empty : Body := ⟨[], none⟩

instance : Inhabited Body := ⟨empty⟩

/-- The body that holds the given bytes in one frame; none if there are no bytes. -/
def ofBytes (bs : Bytes) : Body := ⟨if bs = [] then [] else [.data bs], none⟩

/-- Whether nothing is to be read from the body. -/
def isAtEnd (b : Body) : Bool := b.frames.isEmpty && b.failure.isNone

/-- The bytes of all frames in order. -/
def content (b : Body) : Bytes := b.frames.flatMap Frame.bytes

end Body

/-- A request. -/
structure Request where
  method : Method
  target : Uri
  version : Version
  headers : Headers
  body : Body
deriving DecidableEq, Repr

/-- A response.  Of a body that is passed on as it comes, the length is not known beforehand. -/
structure Response where
  status : Status
  reason : Option String
  headers : Headers
  body : Body
  streamed : Bool
deriving DecidableEq, Repr

namespace Response

/-- The response with the given status and nothing else. -/
def ofStatus (status : Status) : Response := ⟨status, none, .empty, .empty, false⟩

/-- Puts a value under a name, as the only one. -/
def setHeader (r : Response) (name : HeaderName) (value : HeaderValue) : Response :=
  { r with headers := r.headers.insert name value }

/-- Adds a cookie for the browser, unless its text cannot stand in a header field
(`append_set_cookie`). -/
def addCookie (r : Response) (cookie : String) : Response :=
  match HeaderValue.ofText? cookie with
  | some value => { r with headers := r.headers.append .setCookie value }
  | none => r

end Response
end AccessGateway

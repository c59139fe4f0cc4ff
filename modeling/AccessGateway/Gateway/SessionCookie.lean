import AccessGateway.Wire.Message

/-!
# Cookies for the browser

The cookie by which a browser is known again, the one that makes it forget, and the one that hands
it a token.
-/

set_option autoImplicit false

namespace AccessGateway.BrowserCookie

/-- The cookie that carries the id of a session (`session_cookie`). -/
def session (name id : String) : String := name ++ "=" ++ id ++ "; HttpOnly; Path=/"

/-- The cookie that takes the id of a session back (`expired_session_cookie`). -/
def expired (name : String) : String := name ++ "=; HttpOnly; Path=/; Max-Age=0"

/-- The cookie that carries a token. -/
def token (name token : String) : String := name ++ "=" ++ token ++ "; Path=/"

end AccessGateway.BrowserCookie

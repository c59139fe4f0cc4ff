import AccessGateway.Text.Ascii
import AccessGateway.Text.Blank
import AccessGateway.Text.Split

/-!
# Cookies

A cookie is a name and a value around the first `=` of the part before the first `;`, both without
the blanks around them.  The parts after it are attributes, of which only the last `Path` matters.
The parts of a request's cookie header are cookies without attributes.  Nothing is unescaped.
-/

set_option autoImplicit false

namespace AccessGateway

/-- A cookie with the path it is meant for, if it says one. -/
structure Cookie where
  name : String
  value : String
  path : Option String
deriving DecidableEq, Repr

namespace Cookie

/-- The name and value of a part with a `=` in it, the name being no blank. -/
def pair? (part : List Char) : Option (String × String) := do
  let (name, value) ← Text.cut? '=' part
  let name := Text.trim name
  if name = [] then none else some (String.ofList name, String.ofList (Text.trim value))

/-- The path that an attribute names. -/
def pathOf? (part : List Char) : Option String := do
  let (key, value) ← Text.cut? '=' part
  if Text.eqIgnoreCase (String.ofList (Text.trim key)) "path" then
    some (String.ofList (Text.trim value))
  else none

/-- Reads what a `Set-Cookie` field holds. -/
def parse? (s : String) : Option Cookie :=
  match Text.fields ';' s.toList with
  | [] => none
  | part :: attributes =>
    (pair? part).map fun (name, value) => ⟨name, value, (attributes.filterMap pathOf?).getLast?⟩

/-- The names and values that a `Cookie` field holds; parts that are no cookies are passed over. -/
def split (s : String) : List (String × String) := (Text.fields ';' s.toList).filterMap pair?

/-- The written form of a row of names and values in a `Cookie` field. -/
def write (pairs : List (String × String)) : String :=
  Text.join "; " (pairs.map fun (name, value) => name ++ "=" ++ value)

end Cookie
end AccessGateway

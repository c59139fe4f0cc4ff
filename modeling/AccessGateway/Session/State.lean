import AccessGateway.Session.Jar
import AccessGateway.Session.Role

/-!
# Sessions

What is known about one browser: the roles it holds, an audit token, the jars, and when it last
came to each part of the site.  A destroyed session has lost all of it.
-/

set_option autoImplicit false

namespace AccessGateway

/-- The state of one browser's session. -/
structure Session where
  roles : List Role
  auditToken : Option String
  cookies : CookieJar
  headers : HeaderJar
  lastAccess : List (String × Instant)
  destroyed : Bool
deriving DecidableEq, Repr

namespace Session

/-- The session of a browser that is not known yet. -/
def fresh : Session := ⟨[], none, .empty, .empty, [], false⟩

instance : Inhabited Session := ⟨fresh⟩

/-- The names of the roles in the order in which they were granted. -/
def roleNames (s : Session) : List String := s.roles.map (·.name)

/-- Grants a role in place of its namesake (`add_role`). -/
def addRole (s : Session) (r : Role) : Session :=
  { s with roles := s.roles.filter (·.name ≠ r.name) ++ [r] }

/-- Grants roles one after the other. -/
def addRoles (s : Session) (rs : List Role) : Session := rs.foldl addRole s

/-- Takes all roles away (`clear_roles`). -/
def clearRoles (s : Session) : Session := { s with roles := [] }

/-- The roles with the first usable one touched, and its name. -/
def useFirst (usable : Role → Bool) (now : Instant) : List Role → Option (String × List Role)
  | [] => none
  | r :: rs =>
    if usable r then some (r.name, r.touch now :: rs)
    else (useFirst usable now rs).map fun (name, rs) => (name, r :: rs)

/-- Uses the first active role that is one of `required` (`use_any_role`). -/
def useAnyRole (s : Session) (required : List String) (now : Instant) : Option (String × Session) :=
  (useFirst (fun r => r.isActive now && required.contains r.name) now s.roles).map
    fun (name, roles) => (name, { s with roles })

/-- Notes that the browser came to a part of the site (`record_access`). -/
def recordAccess (s : Session) (root : String) (now : Instant) : Session :=
  { s with lastAccess := s.lastAccess.filter (·.1 ≠ root) ++ [(root, now)] }

/-- When the browser last came to a part of the site (`last_access`). -/
def lastAccessTo (s : Session) (root : String) : Option Instant :=
  (s.lastAccess.find? (·.1 = root)).map (·.2)

/-- Drops everything; nothing but the mark remains. -/
def destroy (_ : Session) : Session := { fresh with destroyed := true }

end Session
end AccessGateway

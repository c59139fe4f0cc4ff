import AccessGateway.Text.Blank
import AccessGateway.Text.Number
import AccessGateway.Time.Duration

/-!
# Roles

A role is granted with an optional idle timeout and an optional lifetime, both in seconds.  It is
written `name:idle:lifetime`; a list of roles has commas between them.
-/

set_option autoImplicit false

namespace AccessGateway

/-- A role that a session holds. -/
structure Role where
  name : String
  idleTimeout : Option Nat
  lifetime : Option Nat
  issuedAt : Instant
  lastUsed : Instant
deriving DecidableEq, Repr

namespace Role

/-- A role without limits. -/
def plain (name : String) (now : Instant) : Role := ⟨name, none, none, now, now⟩

/-- A number of seconds below `2 ^ 64`, with any blanks around it (`parse_secs`). -/
def seconds? (cs : List Char) : Option Nat := Text.word? UInt64.size (Text.trim cs)

/-- Reads one definition, granted at `now`.  The name must not be empty; a limit that is no number
is left out. -/
def parse? (definition : List Char) (now : Instant) : Option Role :=
  match Text.fields ':' (Text.trim definition) with
  | [] => none
  | name :: limits =>
    if name = [] then none
    else some
      { name := String.ofList name
        idleTimeout := limits[0]?.bind seconds?
        lifetime := limits[1]?.bind seconds?
        issuedAt := now
        lastUsed := now }

/-- Reads the definitions between commas, passing over the ones without a name (`parse_list`). -/
def parseList (definitions : String) (now : Instant) : List Role :=
  (Text.fields ',' definitions.toList).filterMap (parse? · now)

/-- Whether less than the limit has gone by since an instant. -/
def within (limit : Option Nat) (since now : Instant) : Bool :=
  match limit with
  | some s => now - since < Duration.ofSeconds s
  | none => true

/-- A role is active while neither of its limits is reached (`is_active`). -/
def isActive (r : Role) (now : Instant) : Bool :=
  within r.lifetime r.issuedAt now && within r.idleTimeout r.lastUsed now

/-- The role after a use. -/
def touch (r : Role) (now : Instant) : Role := { r with lastUsed := now }

end Role
end AccessGateway

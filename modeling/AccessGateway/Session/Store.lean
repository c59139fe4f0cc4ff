import AccessGateway.Metrics
import AccessGateway.Session.State

/-!
# The session store

Sessions are held under ids that are handed out once.  A session is alive while its age is below
the longest lifetime and the time since it was last looked up is below the idle timeout.  The time
of a look-up is kept as whole milliseconds of the session's age.  A session that is found dead is
removed.
-/

set_option autoImplicit false

namespace AccessGateway

/-- A session with what its life is measured by (`SessionHandle`). -/
structure HeldSession where
  session : Session
  createdAt : Instant
  lastSeen : Nat
deriving DecidableEq, Repr

namespace HeldSession

/-- Whether the session has outlived one of the limits (`is_expired`). -/
def isExpired (h : HeldSession) (now : Instant) (idle lifetime : Duration) : Bool :=
  let age := now - h.createdAt
  lifetime ≤ age || idle ≤ age - Duration.ofMillis h.lastSeen

/-- The session after a look-up. -/
def touch (h : HeldSession) (now : Instant) : HeldSession :=
  { h with lastSeen := Duration.millis (now - h.createdAt) }

end HeldSession

/-- The sessions that are held, with their limits. -/
structure SessionStore where
  idle : Duration
  lifetime : Duration
  entries : List (String × HeldSession)
deriving DecidableEq, Repr

namespace SessionStore

/-- The store without sessions. -/
def empty (idle lifetime : Duration) : SessionStore := ⟨idle, lifetime, []⟩

/-- The number of sessions held. -/
def size (st : SessionStore) : Nat := st.entries.length

/-- The session held under an id, dead or alive. -/
def find? (st : SessionStore) (id : String) : Option HeldSession :=
  (st.entries.find? (·.1 = id)).map (·.2)

/-- The entries with what is held under an id changed. -/
def modify (st : SessionStore) (id : String) (f : HeldSession → HeldSession) : SessionStore :=
  { st with entries := st.entries.map fun e => if e.1 = id then (e.1, f e.2) else e }

/-- Removes the session under an id. -/
def remove (st : SessionStore) (id : String) : SessionStore × Metrics :=
  match st.find? id with
  | none => (st, [])
  | some _ =>
    let st := { st with entries := st.entries.filter (·.1 ≠ id) }
    (st, [.sessions st.size])

/-- Looks a session up (`get_at`); a dead one is removed. -/
def get (st : SessionStore) (id : String) (now : Instant) :
    SessionStore × Option Session × Metrics :=
  match st.find? id with
  | none => (st, none, [])
  | some h =>
    if h.isExpired now st.idle st.lifetime then
      let (st, events) := st.remove id
      (st, none, events)
    else (st.modify id (·.touch now), some h.session, [])

/-- The session that a request is about. -/
structure Resolved where
  id : String
  session : Session
  created : Bool
deriving DecidableEq, Repr

/-- Finds the session under an id, or puts a new one under `freshId`. -/
def resolve (st : SessionStore) (id : Option String) (freshId : String) (now : Instant) :
    SessionStore × Resolved × Metrics :=
  let (st, found, events) := match id with
    | some id => st.get id now
    | none => (st, none, [])
  match id, found with
  | some id, some session => (st, ⟨id, session, false⟩, events)
  | _, _ =>
    let st := { st with
      entries := st.entries.filter (·.1 ≠ freshId) ++ [(freshId, ⟨Session.fresh, now, 0⟩)] }
    (st, ⟨freshId, Session.fresh, true⟩, events ++ [.sessions st.size])

/-- Puts the new state of a session under its id, if it is still held. -/
def save (st : SessionStore) (id : String) (session : Session) : SessionStore :=
  st.modify id ({ · with session })

/-- Removes all dead sessions; says how many there were. -/
def sweep (st : SessionStore) (now : Instant) : SessionStore × Nat × Metrics :=
  let kept := st.entries.filter fun e => !e.2.isExpired now st.idle st.lifetime
  let removed := st.size - kept.length
  ({ st with entries := kept }, removed, if removed > 0 then [.sessions kept.length] else [])

end SessionStore
end AccessGateway

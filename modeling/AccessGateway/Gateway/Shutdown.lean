/-!
# Shutting down

Everyone who has to stop subscribes to one channel.  The channel keeps only the latest signal: who
was sent more learns how many were missed, and then gets the latest.
-/

set_option autoImplicit false

namespace AccessGateway

/-- What a subscriber receives. -/
inductive Notice where
  /-- Time to stop. -/
  | signal
  /-- So many signals were missed. -/
  | lagged (missed : Nat)
deriving DecidableEq, Repr

/-- The channel: how many signals were sent, and how many when each subscriber came. -/
structure Shutdown where
  sent : Nat
  subscribers : List Nat
deriving DecidableEq, Repr

namespace Shutdown

/-- The channel before any signal. -/
def new : Shutdown := ⟨0, []⟩

/-- One more subscriber. -/
def subscribe (s : Shutdown) : Shutdown := { s with subscribers := s.subscribers ++ [s.sent] }

/-- Sends a signal; without subscribers it is lost. -/
def trigger (s : Shutdown) : Shutdown :=
  if s.subscribers.isEmpty then s else { s with sent := s.sent + 1 }

/-- What a subscriber receives that missed so many signals since it came. -/
def noticesFor : Nat → List Notice
  | 0 => []
  | 1 => [.signal]
  | missed + 2 => [.lagged (missed + 1), .signal]

/-- What all subscribers receive. -/
def notices (s : Shutdown) : List (List Notice) :=
  s.subscribers.map fun since => noticesFor (s.sent - since)

end Shutdown
end AccessGateway

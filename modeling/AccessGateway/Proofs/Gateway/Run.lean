import AccessGateway.Proofs.Gateway.Serving

/-!
# Runs of a server

A server lives through requests, in any order and with any surroundings, and through sweeps of its
session store.  `Server.run` goes through a row of such events; what holds at the start and is kept
by every event holds after every run.

## Results

* `Server.run_induction` — the principle by which invariants are proved.
* `Server.run_setup`, `Server.run_table`, `Server.run_cookieName` — what the settings fixed stays
  fixed.
* `Server.exchange_cases` — everything that an exchange can be.
-/

set_option autoImplicit false

namespace AccessGateway

/-- What happens to a server. -/
inductive ServerEvent where
  /-- A request comes in and is served. -/
  | request (w : Surroundings) (r : Request)
  /-- Dead sessions are removed. -/
  | sweep (now : Instant)

/-! ## Ids of requests -/

namespace RequestId

theorem assign_target (fresh : String) (r : Request) : (assign fresh r).target = r.target := by
  unfold assign
  split <;> rfl

theorem assign_method (fresh : String) (r : Request) : (assign fresh r).method = r.method := by
  unfold assign
  split <;> rfl

theorem assign_version (fresh : String) (r : Request) : (assign fresh r).version = r.version := by
  unfold assign
  split <;> rfl

theorem assign_body (fresh : String) (r : Request) : (assign fresh r).body = r.body := by
  unfold assign
  split <;> rfl

theorem assign_values (fresh : String) (r : Request) {name : HeaderName}
    (h : name ≠ .requestId) : (assign fresh r).headers.values name = r.headers.values name := by
  unfold assign
  split
  · rfl
  · rw [Headers.values_insertSome, if_neg fun hn => h hn.1.symm]

theorem assign_requestCookie? (fresh : String) (r : Request) (name : String) :
    (assign fresh r).headers.requestCookie? name = r.headers.requestCookie? name :=
  Headers.requestCookie?_congr (assign_values fresh r (by decide)) name

end RequestId

namespace Gateway

/-- The id of a request plays no part in finding its session. -/
theorem sessionFor_assign (g : Gateway) (w : Surroundings) (fresh : String) (r : Request) :
    g.sessionFor w (RequestId.assign fresh r).headers = g.sessionFor w r.headers := by
  unfold sessionFor
  rw [RequestId.assign_requestCookie?]

theorem found_assign (g : Gateway) (w : Surroundings) (fresh : String) (r : Request) :
    g.found w (RequestId.assign fresh r).headers = g.found w r.headers := by
  unfold found
  rw [sessionFor_assign]

/-- Nor in relaying the answer. -/
theorem relayOf_assign (w : Surroundings) (fresh : String) (r : Request) (answer : Response) :
    relayOf w (RequestId.assign fresh r) answer = relayOf w r answer := by
  unfold relayOf relay? RequestId.assign
  split <;> rfl

end Gateway

/-! ## The SAML endpoint -/

namespace PostBinding

variable {g : Gateway} {w : Surroundings} {root : String} {r : Request}

/-- An assertion is kept in the session of the request, or the request is refused. -/
theorem handle_gateway :
    (handle g w root r).gateway = g ∨
    ∃ posted, (handle g w root r).gateway =
      (g.sessionFor w r.headers).1.save (g.found w r.headers).id
        (keep (g.found w r.headers).session posted) := by
  unfold handle
  split
  · exact .inl rfl
  · rename_i form _
    exact .inr ⟨posted? r.target form, rfl⟩

theorem handle_setup : (handle g w root r).gateway.setup = g.setup := by
  rcases @handle_gateway g w root r with h | ⟨posted, h⟩
  · rw [h]
  · rw [h]
    rfl

theorem handle_calls : (handle g w root r).calls = [] := by
  unfold handle
  split <;> rfl

theorem handle_sent : (handle g w root r).sent = [] := by
  unfold handle
  split <;> rfl

end PostBinding

/-! ## Servers -/

namespace Server

/-- A server before its first request. -/
def new (router : Router) (settings : Settings) (localPort : Nat) : Server :=
  ⟨router, .ofSettings settings localPort⟩

/-- One event. -/
def step (s : Server) : ServerEvent → Server
  | .request w r => (s.answer w r).1
  | .sweep now =>
    { s with gateway := { s.gateway with sessions := (s.gateway.sessions.sweep now).1 } }

/-- A row of events. -/
def run (s : Server) (events : List ServerEvent) : Server := events.foldl step s

variable {s : Server} {w : Surroundings} {r : Request}

/-- Everything that came of a request. -/
def exchange (s : Server) (w : Surroundings) (r : Request) : Exchange := (s.answer w r).2.1

theorem step_request : (s.step (.request w r)).gateway = (s.exchange w r).gateway := by
  unfold step exchange answer
  dsimp only

theorem run_append (s : Server) (before after : List ServerEvent) :
    s.run (before ++ after) = (s.run before).run after := List.foldl_append

/-- A request is handled under the mapping of its path, or it is a post to the SAML endpoint, or it
    is answered at once with a status. -/
theorem exchange_cases (s : Server) (w : Surroundings) (r : Request) :
    (∃ metrics, s.exchange w r =
      { s.gateway.handle w (s.gateway.table.resolve r.target.path)
          (RequestId.assign w.freshRequest r) with metrics }) ∨
    (∃ root, s.exchange w r =
      PostBinding.handle s.gateway w root (RequestId.assign w.freshRequest r)) ∨
    ∃ status metrics, s.exchange w r =
      ⟨s.gateway, some (.ofStatus status), [], [], [], metrics⟩ := by
  have hdispatch : ∀ x, x = s.gateway.dispatch w (RequestId.assign w.freshRequest r) →
      (∃ metrics, x = { s.gateway.handle w (s.gateway.table.resolve r.target.path)
          (RequestId.assign w.freshRequest r) with metrics }) ∨
      ∃ status metrics, x = ⟨s.gateway, some (.ofStatus status), [], [], [], metrics⟩ := by
    rintro x rfl
    cases hcheck : (RequestId.assign w.freshRequest r).check with
    | error e =>
      obtain ⟨metrics, hx⟩ := Gateway.dispatch_of_error (g := s.gateway) (w := w) hcheck
      exact .inr ⟨e.status, metrics, hx⟩
    | ok u =>
      obtain ⟨metrics, hx⟩ := Gateway.dispatch_of_check (g := s.gateway) (w := w) hcheck
      rw [RequestId.assign_target] at hx
      exact .inl ⟨metrics, hx⟩
  have hroute : s.exchange w r = s.gateway.dispatch w (RequestId.assign w.freshRequest r) ∨
      (∃ root, s.exchange w r =
        PostBinding.handle s.gateway w root (RequestId.assign w.freshRequest r)) ∨
      s.exchange w r = ⟨s.gateway, some (.ofStatus .notFound), [], [], [], []⟩ := by
    unfold exchange answer
    dsimp only
    split
    · exact .inl rfl
    · exact .inl rfl
    · rename_i root _
      exact .inr (.inl ⟨root, rfl⟩)
    · exact .inr (.inr rfl)
  rcases hroute with h | h | h
  · rcases hdispatch _ h with h | h
    · exact .inl h
    · exact .inr (.inr h)
  · exact .inr (.inl h)
  · exact .inr (.inr ⟨_, _, h⟩)

/-- What is sent to backends is sent by the mapping of the path. -/
theorem handled_of_mem_sent {out : Request} (h : out ∈ (s.exchange w r).sent) :
    out ∈ (s.gateway.handle w (s.gateway.table.resolve r.target.path)
      (RequestId.assign w.freshRequest r)).sent := by
  rcases exchange_cases s w r with ⟨metrics, hx⟩ | ⟨root, hx⟩ | ⟨status, metrics, hx⟩
  · rw [hx] at h
    exact h
  · rw [hx, PostBinding.handle_sent] at h
    cases h
  · rw [hx] at h
    cases h

/-- What holds at the start and is kept by every event holds after every run. -/
theorem run_induction {P : Gateway → Prop} {s : Server} (start : P s.gateway)
    (handle : ∀ g w m r, P g → P (g.handle w m r).gateway)
    (binding : ∀ g w root r, P g → P (PostBinding.handle g w root r).gateway)
    (sweep : ∀ g now, P g → P { g with sessions := (g.sessions.sweep now).1 })
    (events : List ServerEvent) : P (s.run events).gateway := by
  unfold run
  induction events generalizing s with
  | nil => exact start
  | cons e es ih =>
    refine ih ?_
    cases e with
    | request w r =>
      rw [step_request]
      rcases exchange_cases s w r with ⟨metrics, h⟩ | ⟨root, h⟩ | ⟨status, metrics, h⟩
      · rw [h]
        dsimp only
        exact handle _ _ _ _ start
      · rw [h]
        exact binding _ _ _ _ start
      · rw [h]
        exact start
    | sweep now => exact sweep _ _ start

theorem run_setup (s : Server) (events : List ServerEvent) :
    (s.run events).gateway.setup = s.gateway.setup :=
  run_induction (P := fun g => g.setup = s.gateway.setup) rfl
    (fun _ _ _ _ h => Gateway.handle_setup.trans h)
    (fun _ _ _ _ h => PostBinding.handle_setup.trans h)
    (fun _ _ h => h) events

theorem run_table (s : Server) (events : List ServerEvent) :
    (s.run events).gateway.table = s.gateway.table := congrArg (·.1) (run_setup s events)

theorem run_cookieName (s : Server) (events : List ServerEvent) :
    (s.run events).gateway.cookieName = s.gateway.cookieName :=
  congrArg (·.2.2.1) (run_setup s events)

end Server
end AccessGateway

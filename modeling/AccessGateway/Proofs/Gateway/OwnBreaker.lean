import AccessGateway.Proofs.Circuit.Independence
import AccessGateway.Proofs.Gateway.Run
import AccessGateway.Proofs.Metrics.Counters

/-!
# The breaker of a mapping

A mapping calls its backend under the breaker that goes by its name.  Its requests see no other
breaker and change no other, and what mappings of other names do leaves this one as it is.

## Results

* `Breakers.Reduces.call`, `Breakers.find?_call` — one guarded call.
* `Gateway.handle_reduces`, `Gateway.dispatch_reduces` — a request is served as if its mapping's
  breaker were the only one.
* `Gateway.handle_find?`, `Server.step_find?`, `Server.run_find?` — a breaker that no request goes
  by stays as it is.
-/

set_option autoImplicit false

namespace AccessGateway

/-! ## One guarded call -/

namespace Breakers

variable {ε α : Type} {t target : String} {r r' : Breakers} {now later : Instant}
  {outcome : CallOutcome ε α} {isFailure : α → Bool}

theorem Reduces.acquire_events (h : Reduces t r r') (now : Instant) :
    (r'.acquire t now).2.2 = (r.acquire t now).2.2 := by
  rw [Breakers.acquire_events, Breakers.acquire_events, h.get_eq, h.settings]

theorem Reduces.takeBack_events (h : Reduces t r r') {p : TargetPermit} (hp : p.target = t)
    (outcome : Option Bool) (now : Instant) :
    (r'.takeBack p outcome now).2 = (r.takeBack p outcome now).2 := by
  subst hp
  rw [Breakers.takeBack_events, Breakers.takeBack_events, h.get_eq, h.settings]

/-- A call goes as if there were no other breakers. -/
theorem Reduces.call (h : Reduces t r r') (now later : Instant) (outcome : CallOutcome ε α)
    (isFailure : α → Bool) :
    (r'.call t now later outcome isFailure).2 = (r.call t now later outcome isFailure).2 ∧
    Reduces t (r.call t now later outcome isFailure).1
      (r'.call t now later outcome isFailure).1 := by
  have hpermit := h.permit_eq now
  cases hp : (r.acquire t now).2.1 with
  | none =>
    rw [hp] at hpermit
    rw [call_refused hp, call_refused hpermit, h.acquire_events]
    exact ⟨rfl, h.acquire now⟩
  | some p =>
    rw [hp] at hpermit
    have htarget := target_of_acquire hp
    have hback := (h.acquire now).takeBack htarget (outcome.verdict isFailure) later
    rw [call_taken hp, call_taken hpermit, h.settings, h.acquire_events]
    dsimp only
    rw [(h.acquire now).takeBack_events htarget]
    exact ⟨rfl, hback⟩

/-- A call leaves the breakers of other targets as they are. -/
theorem find?_call (hne : t ≠ target) :
    (r.call target now later outcome isFailure).1.find? t = r.find? t := by
  have hacquire : (r.acquire target now).1.find? t = r.find? t := by
    rw [(puts_acquire r target now).found, if_neg hne]
  cases hp : (r.acquire target now).2.1 with
  | none =>
    rw [call_refused hp]
    exact hacquire
  | some p =>
    rw [call_taken hp]
    dsimp only
    rw [(puts_takeBack _ p _ later).found, target_of_acquire hp, if_neg hne, hacquire]

end Breakers

/-! ## One request -/

namespace Gateway

variable {g : Gateway} {w : Surroundings} {m : Mapping} {r : Request} {id t : String} {s : Session}
  {injection : Injection} {own : Breakers} {path : String}

/-- The gateway with other breakers. -/
def withBreakers (g : Gateway) (breakers : Breakers) : Gateway := { g with breakers }

theorem deliver_withBreakers (answer : Response) :
    (g.withBreakers own).deliver w m id s r answer =
      ((g.deliver w m id s r answer).1.withBreakers own, (g.deliver w m id s r answer).2) := by
  rw [deliver_eq, deliver_eq]
  rfl

theorem settle_withBreakers (created : Bool) (issuedJwt : Option String) (loggedOut : Bool)
    (response : Response) :
    (g.withBreakers own).settle id created issuedJwt loggedOut response =
      ((g.settle id created issuedJwt loggedOut response).1.withBreakers own,
        (g.settle id created issuedJwt loggedOut response).2) := by
  unfold settle
  cases loggedOut with
  | true => rfl
  | false => cases created <;> rfl

/-- A gateway is itself with the breakers that it has. -/
theorem settle_breakers (created : Bool) (issuedJwt : Option String) (loggedOut : Bool)
    (response : Response) :
    (g.settle id created issuedJwt loggedOut response).1.breakers = g.breakers :=
  congrArg (·.1.breakers)
    (@settle_withBreakers g id g.breakers created issuedJwt loggedOut response)

/-- What becomes of a request once the guarded call is over. -/
def received (g : Gateway) (w : Surroundings) (m : Mapping) (id : String) (s : Session)
    (r outbound : Request) (result : Except (CallError String) Response) (events : Metrics) :
    Gateway × BackendResult × List Request × Metrics :=
  match result with
  | .error .circuitOpen => (g, .failed (.circuitOpen m.name), [], events)
  | .error (.timedOut limit) => (g, .failed (.timeout limit), [outbound], events)
  | .error (.failed reason) => (g, .failed (.backend reason), [outbound], events)
  | .error .abandoned => (g, .outOfTime, [outbound], events)
  | .ok answer =>
    let delivered := g.deliver w m id s r answer
    (delivered.1, delivered.2, [outbound], events)

theorem forward_of_error {e : GatewayError}
    (h : Outbound.request m.backend r injection g.proxy g.localPort = .error e) :
    g.forward w m id s r injection = (g, .failed e, [], []) := by
  unfold forward
  rw [h]

/-- A request with an address goes out in a guarded call under the name of its mapping. -/
theorem forward_of_ok {outbound : Request}
    (h : Outbound.request m.backend r injection g.proxy g.localPort = .ok outbound) :
    g.forward w m id s r injection =
      let call := g.breakers.call m.name w.decided w.answered (w.backend outbound)
        (·.status.isServerError)
      (g.withBreakers call.1).received w m id s r outbound call.2.1 call.2.2 := by
  unfold forward
  rw [h]
  dsimp only
  rcases g.breakers.call m.name w.decided w.answered (w.backend outbound) _ with
    ⟨breakers, result, events⟩
  cases result with
  | error e => cases e <;> rfl
  | ok answer => rfl

theorem received_withBreakers (outbound : Request) (result : Except (CallError String) Response)
    (events : Metrics) :
    (g.withBreakers own).received w m id s r outbound result events =
      ((g.received w m id s r outbound result events).1.withBreakers own,
        (g.received w m id s r outbound result events).2) := by
  cases result with
  | error e => cases e <;> rfl
  | ok answer =>
    unfold received
    dsimp only
    rw [deliver_withBreakers]

theorem received_breakers (outbound : Request) (result : Except (CallError String) Response)
    (events : Metrics) :
    (g.received w m id s r outbound result events).1.breakers = g.breakers :=
  congrArg (·.1.breakers) (@received_withBreakers g w m r id s g.breakers outbound result events)

theorem forward_reduces (h : Breakers.Reduces m.name g.breakers own) :
    ∃ own',
      (g.withBreakers own).forward w m id s r injection =
        ((g.forward w m id s r injection).1.withBreakers own',
          (g.forward w m id s r injection).2) ∧
      Breakers.Reduces m.name (g.forward w m id s r injection).1.breakers own' := by
  cases hrequest : Outbound.request m.backend r injection g.proxy g.localPort with
  | error e =>
    rw [forward_of_error hrequest, forward_of_error (g := g.withBreakers own) hrequest]
    exact ⟨own, rfl, h⟩
  | ok outbound =>
    obtain ⟨hanswer, hreduces⟩ :=
      h.call w.decided w.answered (w.backend outbound) (·.status.isServerError)
    rw [forward_of_ok hrequest, forward_of_ok (g := g.withBreakers own) hrequest]
    dsimp only
    rw [received_breakers]
    refine ⟨_, ?_, hreduces⟩
    show ((g.withBreakers own).withBreakers _).received w m id s r outbound
      (own.call _ _ _ _ _).2.1 (own.call _ _ _ _ _).2.2 = _
    rw [hanswer, received_withBreakers, received_withBreakers, received_withBreakers]
    rfl

theorem forward_find? (hne : t ≠ m.name) :
    (g.forward w m id s r injection).1.breakers.find? t = g.breakers.find? t := by
  cases hrequest : Outbound.request m.backend r injection g.proxy g.localPort with
  | error e => rw [forward_of_error hrequest]
  | ok outbound =>
    rw [forward_of_ok hrequest]
    dsimp only
    rw [received_breakers]
    exact Breakers.find?_call hne

theorem entered_breakers : (g.entered w m r).breakers = g.breakers := rfl

theorem served_reduces (h : Breakers.Reduces m.name g.breakers own) :
    ∃ own',
      (g.withBreakers own).served w m r =
        ((g.served w m r).1.withBreakers own', (g.served w m r).2) ∧
      Breakers.Reduces m.name (g.served w m r).1.breakers own' := by
  -- session and verdict are found without a look at the breakers
  have hverdict : (g.withBreakers own).verdict w m r = g.verdict w m r := rfl
  have hentered : (g.withBreakers own).entered w m r = (g.entered w m r).withBreakers own := rfl
  have hfound : (g.withBreakers own).found w r.headers = g.found w r.headers := rfl
  rw [← @entered_breakers g w m r] at h
  unfold served
  rw [hverdict, hentered, hfound]
  dsimp only
  split
  · exact ⟨own, rfl, h⟩
  · exact ⟨own, rfl, h⟩
  · exact ⟨own, rfl, h⟩
  · exact forward_reduces h

theorem served_find? (hne : t ≠ m.name) :
    (g.served w m r).1.breakers.find? t = g.breakers.find? t := by
  rw [← @entered_breakers g w m r]
  unfold served
  dsimp only
  split
  · rfl
  · rfl
  · rfl
  · exact forward_find? hne

theorem conclude_withBreakers (after : Gateway) (own own' : Breakers) (response : Response)
    (loggedOut : Bool) (sent : List Request) (events : Metrics) :
    (g.withBreakers own).conclude w m r (after.withBreakers own') response loggedOut sent events =
      let x := g.conclude w m r after response loggedOut sent events
      { x with gateway := x.gateway.withBreakers own' } := by
  unfold conclude
  dsimp only
  rw [settle_withBreakers]
  rfl

/-- A request is served as if its mapping's breaker were the only one. -/
theorem handle_reduces (h : Breakers.Reduces m.name g.breakers own) :
    ∃ own',
      (g.withBreakers own).handle w m r =
        { g.handle w m r with gateway := (g.handle w m r).gateway.withBreakers own' } ∧
      Breakers.Reduces m.name (g.handle w m r).gateway.breakers own' := by
  obtain ⟨own', hserved, hreduces⟩ := @served_reduces g w m r own h
  refine ⟨own', ?_⟩
  rw [handle_eq, handle_eq, hserved]
  dsimp only
  split
  · rw [conclude_withBreakers]
    refine ⟨rfl, ?_⟩
    rw [conclude, settle_breakers]
    exact hreduces
  · exact ⟨rfl, hreduces⟩

theorem handle_find? (hne : t ≠ m.name) :
    (g.handle w m r).gateway.breakers.find? t = g.breakers.find? t := by
  rw [handle_eq]
  dsimp only
  split
  · rw [conclude, settle_breakers]
    exact served_find? hne
  · exact served_find? hne

/-- What no mapping rules goes to no backend. -/
theorem handle_denyAll : (g.handle w .denyAll r).gateway.breakers = g.breakers := by
  rw [handle_eq]
  dsimp only
  split
  · rw [conclude, settle_breakers]
    rfl
  · rfl

/-- The breaker of a name is left as it is by requests that mappings of other names rule. -/
theorem handle_resolved_find?
    (h : ∀ m' ∈ g.table.mappings, g.table.resolve path = m' → m'.name ≠ t) :
    (g.handle w (g.table.resolve path) r).gateway.breakers.find? t = g.breakers.find? t := by
  rcases List.mem_cons.mp (MappingTable.resolve_mem g.table path) with hnone | hm
  · rw [hnone, handle_denyAll]
  · exact handle_find? (Ne.symm (h _ hm rfl))

/-- This includes the requests that cannot be relayed and are answered at once. -/
theorem dispatch_reduces
    (h : Breakers.Reduces (g.table.resolve r.target.path).name g.breakers own) :
    ∃ own',
      (g.withBreakers own).dispatch w r =
        { g.dispatch w r with gateway := (g.dispatch w r).gateway.withBreakers own' } ∧
      Breakers.Reduces (g.table.resolve r.target.path).name (g.dispatch w r).gateway.breakers
        own' := by
  unfold dispatch
  have htable : (g.withBreakers own).table = g.table := rfl
  rw [htable]
  cases r.check with
  | error e => exact ⟨own, rfl, h⟩
  | ok u =>
    obtain ⟨own', hhandle, hreduces⟩ :=
      @handle_reduces g w (g.table.resolve r.target.path) r own h
    refine ⟨own', ?_⟩
    dsimp only
    rw [hhandle]
    dsimp only
    split
    · exact ⟨rfl, hreduces⟩
    · exact ⟨rfl, hreduces⟩

end Gateway

/-! ## Runs -/

/-- A request that a mapping rules. -/
def ServerEvent.IsRuledBy (table : MappingTable) (m : Mapping) : ServerEvent → Prop
  | .request _ r => table.resolve r.target.path = m
  | .sweep _ => False

namespace Server

variable {s : Server} {t : String}

theorem step_find? {e : ServerEvent}
    (h : ∀ m ∈ s.gateway.table.mappings, e.IsRuledBy s.gateway.table m → m.name ≠ t) :
    (s.step e).gateway.breakers.find? t = s.gateway.breakers.find? t := by
  cases e with
  | sweep now => rfl
  | request w r =>
    rw [step_request]
    rcases exchange_cases s w r with ⟨metrics, hx⟩ | ⟨root, hx⟩ | ⟨status, metrics, hx⟩
    · rw [hx]
      dsimp only
      rw [Gateway.handle_resolved_find? h]
    · rw [hx]
      rcases @PostBinding.handle_gateway s.gateway w root (RequestId.assign w.freshRequest r) with
        hg | ⟨posted, hg⟩
      · rw [hg]
      · rw [hg]
        rfl
    · rw [hx]

theorem run_find? {events : List ServerEvent}
    (h : ∀ e ∈ events, ∀ m ∈ s.gateway.table.mappings,
      e.IsRuledBy s.gateway.table m → m.name ≠ t) :
    (s.run events).gateway.breakers.find? t = s.gateway.breakers.find? t := by
  induction events generalizing s with
  | nil => rfl
  | cons e es ih =>
    rw [List.forall_mem_cons] at h
    have htable : (s.step e).gateway.table = s.gateway.table := run_table s [e]
    have hrest : ((s.step e).run es).gateway.breakers.find? t =
        (s.step e).gateway.breakers.find? t := by
      apply ih
      rw [htable]
      exact h.2
    exact hrest.trans (step_find? h.1)

end Server
end AccessGateway

import AccessGateway.Proofs.Access.Exchange
import AccessGateway.Proofs.Circuit.CircuitBoard
import AccessGateway.Proofs.Gateway.Serving
import Mathlib.Algebra.BigOperators.Group.List.Lemmas
import Mathlib.Algebra.GroupWithZero.Nat

/-!
# What one exchange counts

Counters are bumped in several parts of an exchange: by the decision, if it asked a provider and got
to know what came of it, by turning the request away, and at the end, once there is an answer.  What
an exchange adds to the counters is put together of these three; all else that it records is shown
by gauges.

## Results

* `Metrics.total_eq` — the sum of a counter over its labels.
* `Authorization.Asks`, `Mapping.authorize_asks` — what a decision counts, beside whom it asked.
* `Dispatched.counters_exchange` — what an exchange adds to the counters.
* `Dispatched.count_request`, `count_denial`, `countP_provider` — how often it bumps a series.
-/

set_option autoImplicit false

namespace AccessGateway

/-! ## Series -/

namespace MetricEvent

/-- The series is a counter's, not a gauge's. -/
def isCounter : MetricEvent → Bool
  | .request .. | .denial .. | .identityCall .. => true
  | .circuit .. | .sessions _ => false

def isRequest : MetricEvent → Bool
  | .request .. => true
  | _ => false

/-- The series counts how calls to the providers of a flow ended. -/
def isIdentityCall (flow : String) : MetricEvent → Bool
  | .identityCall name _ => name = flow
  | _ => false

end MetricEvent

namespace Metrics

variable {m m' : Metrics} {series : MetricEvent → Bool}

/-- The sum of a counter over the labels that `series` picks. -/
def total (m : Metrics) (series : MetricEvent → Bool) : Nat :=
  ((m.dedup.filter series).map m.count).sum

theorem total_eq (m : Metrics) (series : MetricEvent → Bool) : m.total series = m.countP series :=
  List.sum_map_count_dedup_filter_eq_countP series m

/-- The events that counters count. -/
def counters (m : Metrics) : Metrics := m.filter (·.isCounter)

theorem counters_append (m m' : Metrics) : (m ++ m').counters = m.counters ++ m'.counters :=
  List.filter_append m m'

/-- Gauges are not counted. -/
theorem countP_counters (h : ∀ e, series e = true → e.isCounter = true) :
    m.counters.countP series = m.countP series := by
  unfold counters
  rw [List.countP_filter]
  refine List.countP_congr fun e _ => ?_
  simpa using h e

end Metrics

open Metrics (counters counters_append)

/-! ## What only gauges show -/

theorem Breaker.counters_changes (name : String) (before after : Breaker) :
    counters (Breaker.changes name before after) = [] := by
  unfold Breaker.changes
  split <;> rfl

theorem Breakers.counters_call {ε α : Type} (r : Breakers) (target : String) (now later : Instant)
    (outcome : CallOutcome ε α) (isFailure : α → Bool) :
    counters (r.call target now later outcome isFailure).2.2 = [] := by
  have hasked : counters (r.acquire target now).2.2 = [] := by
    rw [acquire_events, Breaker.counters_changes]
  cases ha : (r.acquire target now).2.1 with
  | none =>
    rw [call_refused ha]
    exact hasked
  | some p =>
    rw [call_taken ha]
    dsimp only
    rw [counters_append, hasked, takeBack_events, Breaker.counters_changes]
    rfl

namespace SessionStore

variable (st : SessionStore)

theorem counters_remove (id : String) : counters (st.remove id).2 = [] := by
  unfold remove
  split <;> rfl

theorem counters_get (id : String) (now : Instant) : counters (st.get id now).2.2 = [] := by
  unfold get
  split
  · rfl
  · split
    · exact counters_remove st id
    · rfl

theorem counters_resolve (id : Option String) (freshId : String) (now : Instant) :
    counters (st.resolve id freshId now).2.2 = [] := by
  unfold resolve
  dsimp only
  cases id with
  | none => rfl
  | some key =>
    dsimp only
    split
    · exact counters_get st key now
    · rw [counters_append, counters_get]
      rfl

end SessionStore

/-! ## What a decision counts -/

/-- What a decision under a flow counts: nothing, if nobody was asked, and else how the call to the
    provider ended, if it ended in time. -/
inductive Authorization.Asks (flow : String) (v : Authorization) : Prop where
  | nobody (calls : v.calls = []) (metrics : v.metrics = [])
  | ended (call : ProviderCall) (outcome : String) (calls : v.calls = [call])
      (metrics : v.metrics = [.identityCall flow outcome]) (decision : v.decision ≠ .outOfTime)
  | cutOff (call : ProviderCall) (calls : v.calls = [call]) (metrics : v.metrics = [])
      (decision : v.decision = .outOfTime)

theorem Decision.ofBool_ne_outOfTime (b : Bool) : ofBool b ≠ .outOfTime := by
  cases b <;> exact nofun

namespace Mapping

variable (m : Mapping) (peers : IdentityPeers) (r : AccessRequest) (s : Session)
  (st : RequestState)

theorem oneShot_asks (url : String) :
    (OneShot.authorize m url peers r s st).Asks OneShot.label := by
  unfold OneShot.authorize
  split
  · exact .nobody rfl rfl
  · dsimp only
    split
    · exact .cutOff _ rfl rfl rfl
    · exact .ended _ _ rfl rfl nofun
    · exact .ended _ _ rfl rfl (Decision.ofBool_ne_outOfTime _)

theorem exchange_asks (client : ExchangeClient) (checks : List TokenCheck) :
    (TokenExchange.exchange m client peers r s st checks).Asks TokenExchange.label := by
  unfold TokenExchange.exchange
  split
  · exact .nobody rfl rfl
  · dsimp only
    split
    · exact .cutOff _ rfl rfl rfl
    · exact .ended _ _ rfl rfl nofun
    · split
      · exact .ended _ _ rfl rfl nofun
      · exact .ended _ _ rfl rfl nofun

theorem authorize_asks : (m.authorize peers r s st).Asks m.flow.label := by
  have hroles : ∀ b t flow,
      Authorization.Asks flow ⟨.ofBool b, t, st, [], [], []⟩ := fun _ _ _ => .nobody rfl rfl
  unfold authorize
  split
  · exact hroles _ _ _
  · exact hroles _ _ _
  · exact hroles _ _ _
  · rename_i hm
    rw [hm]
    exact oneShot_asks m peers r s st _
  · rename_i hm
    rw [hm]
    unfold TokenExchange.authorize
    split
    · exact exchange_asks m peers r s st _ _
    · split
      · exact .nobody rfl rfl
      · exact .nobody rfl rfl
      · exact exchange_asks m peers r s st _ _
  · exact .nobody rfl rfl

/-- A flow without providers asks nobody. -/
theorem calls_of_flow (honeShot : m.flow.label ≠ OneShot.label)
    (hexchange : m.flow.label ≠ TokenExchange.label) :
    (m.authorize peers r s st).calls = [] := by
  unfold authorize
  split
  · rfl
  · rfl
  · rfl
  · rename_i hm
    exact absurd (congrArg Flow.label hm) honeShot
  · rename_i hm
    exact absurd (congrArg Flow.label hm) hexchange
  · rfl

end Mapping

theorem Authorization.Asks.counters {flow : String} {v : Authorization} (h : v.Asks flow) :
    counters v.metrics = v.metrics := by
  cases h with
  | nobody _ metrics => rw [metrics]; rfl
  | ended _ _ _ metrics _ => rw [metrics]; rfl
  | cutOff _ _ metrics _ => rw [metrics]; rfl

/-! ## What an exchange counts -/

namespace Gateway

variable {g : Gateway} {w : Surroundings} {m : Mapping} {r : Request}

theorem counters_forward {id : String} {s : Session} {injection : Injection} :
    counters (g.forward w m id s r injection).2.2.2 = [] := by
  unfold forward
  split
  · rfl
  · rename_i outbound _
    have hcall := g.breakers.counters_call m.name w.decided w.answered (w.backend outbound)
      (·.status.isServerError)
    dsimp only
    split <;> exact hcall

theorem counters_served :
    counters (g.served w m r).2.2.2 =
      if (g.verdict w m r).decision = .denied then [m.denial] else [] := by
  unfold served
  dsimp only
  split
  · rename_i hd
    rw [hd]
    rfl
  · rename_i hd
    rw [hd]
    rfl
  · rename_i hd
    rw [hd]
    rfl
  · rename_i hd
    rw [hd, counters_forward]
    rfl

theorem counters_settle {id : String} {created loggedOut : Bool} {issuedJwt : Option String}
    {response : Response} :
    counters (g.settle id created issuedJwt loggedOut response).2.2 = [] := by
  unfold settle
  cases loggedOut with
  | true => exact g.sessions.counters_remove id
  | false => cases created <;> rfl

theorem counters_handle :
    counters (g.handle w m r).metrics =
      (g.verdict w m r).metrics ++
        if (g.verdict w m r).decision = .denied then [m.denial] else [] := by
  have hopened : counters (g.sessionFor w r.headers).2.2 = [] := SessionStore.counters_resolve ..
  have hverdict : counters (g.verdict w m r).metrics = (g.verdict w m r).metrics :=
    (Mapping.authorize_asks ..).counters
  rw [handle_eq]
  dsimp only
  split
  · unfold conclude
    simp only [counters_append, hopened, hverdict, counters_served, counters_settle,
      List.nil_append, List.append_nil]
  · simp only [counters_append, hopened, hverdict, counters_served, List.nil_append]

theorem dispatch_table : (g.dispatch w r).gateway.table = g.table := by
  obtain ⟨metrics, hx⟩ := dispatch_eq g w r
  rw [hx]
  unfold uncounted
  dsimp only
  split
  · rfl
  · exact congrArg (·.1) handle_setup

theorem dispatch_response : (g.dispatch w r).response = (g.uncounted w r).response := by
  obtain ⟨metrics, hx⟩ := dispatch_eq g w r
  rw [hx]

/-- A request is counted at the end, if there is an answer. -/
theorem dispatch_metrics :
    (g.dispatch w r).metrics = (g.uncounted w r).metrics ++
      ((g.uncounted w r).response.map fun response =>
        MetricEvent.request (g.table.resolve r.target.path).name r.method.text
          response.status.code).toList := by
  unfold dispatch uncounted
  dsimp only
  generalize g.handle w (g.table.resolve r.target.path) r = x
  cases r.check with
  | error e => rfl
  | ok u =>
    dsimp only
    split
    · rename_i hresponse
      rw [hresponse]
      rfl
    · rename_i hresponse
      rw [hresponse]
      exact (List.append_nil _).symm

end Gateway

/-- A request that was dispatched, with the gateway as it was then. -/
structure Dispatched where
  gateway : Gateway
  surroundings : Surroundings
  request : Request

namespace Dispatched

variable {d : Dispatched} {series : MetricEvent → Bool}

def exchange (d : Dispatched) : Exchange := d.gateway.dispatch d.surroundings d.request

/-- The mapping that rules the request. -/
def mapping (d : Dispatched) : Mapping := d.gateway.table.resolve d.request.target.path

/-- The decision on the request; there is none if the request cannot be relayed. -/
def verdict? (d : Dispatched) : Option Authorization :=
  match d.request.check with
  | .ok () => some (d.gateway.verdict d.surroundings d.mapping d.request)
  | .error _ => none

/-- The mapping turned the request away. -/
def denied (d : Dispatched) : Bool := d.verdict?.any (·.decision = .denied)

/-- The time was over while a provider was asked. -/
def cutOff (d : Dispatched) : Bool :=
  d.verdict?.any fun v => v.decision = .outOfTime ∧ v.calls ≠ []

/-- The status of the answer, if there was one. -/
def status? (d : Dispatched) : Option Nat := d.exchange.response.map (·.status.code)

/-- What the decision counted. -/
def asked (d : Dispatched) : Metrics := (d.verdict?.map (·.metrics)).getD []

/-- The event of an answer with a status. -/
def answered (d : Dispatched) (status : Nat) : MetricEvent :=
  .request d.mapping.name d.request.method.text status

/-- **What an exchange adds to the counters**: how a call to a provider ended, that the request was
    turned away, and that it was answered. -/
theorem counters_exchange (d : Dispatched) :
    counters d.exchange.metrics =
      d.asked ++ (if d.denied then [d.mapping.denial] else []) ++
        (d.status?.map d.answered).toList := by
  have hanswered : ((d.gateway.uncounted d.surroundings d.request).response.map fun response =>
      MetricEvent.request d.mapping.name d.request.method.text response.status.code) =
      d.status?.map d.answered := by
    unfold status? exchange
    rw [Gateway.dispatch_response, Option.map_map]
    rfl
  have hdecided : counters (d.gateway.uncounted d.surroundings d.request).metrics =
      d.asked ++ if d.denied then [d.mapping.denial] else [] := by
    unfold asked denied verdict? Gateway.uncounted
    cases d.request.check with
    | error e => rfl
    | ok u =>
      dsimp only
      rw [Gateway.counters_handle]
      simp [mapping]
  have hlast : counters (d.status?.map d.answered).toList =
      (d.status?.map d.answered).toList := by
    cases d.status? <;> rfl
  unfold exchange
  rw [Gateway.dispatch_metrics, counters_append, hdecided, ← hlast, ← hanswered]
  rfl

theorem calls_exchange (d : Dispatched) :
    d.exchange.calls = (d.verdict?.map (·.calls)).getD [] := by
  unfold exchange verdict?
  rw [Gateway.dispatch_calls]
  unfold Gateway.uncounted
  cases d.request.check with
  | error e => rfl
  | ok u => exact Gateway.handle_calls

theorem asks {v : Authorization} (h : d.verdict? = some v) : v.Asks d.mapping.flow.label := by
  unfold verdict? at h
  split at h
  · cases h
    exact Mapping.authorize_asks ..
  · cases h

/-- How often an exchange bumps the series of a counter. -/
theorem countP_exchange (h : ∀ e, series e = true → e.isCounter = true) :
    d.exchange.metrics.countP series =
      d.asked.countP series + (if d.denied && series d.mapping.denial then 1 else 0) +
        if d.status?.any (series <| d.answered ·) then 1 else 0 := by
  have hdenied : (if d.denied then [d.mapping.denial] else []).countP series =
      if d.denied && series d.mapping.denial then 1 else 0 := by
    cases d.denied <;> simp [List.countP_cons]
  have hanswered : (d.status?.map d.answered).toList.countP series =
      if d.status?.any (series <| d.answered ·) then 1 else 0 := by
    cases d.status? <;> simp [List.countP_cons]
  rw [← Metrics.countP_counters h, counters_exchange, List.countP_append, List.countP_append,
    hdenied, hanswered]

/-- A decision counts nothing but calls to providers. -/
theorem countP_asked (h : ∀ flow outcome, series (.identityCall flow outcome) = false) :
    d.asked.countP series = 0 := by
  unfold asked
  cases hv : d.verdict? with
  | none => rfl
  | some v =>
    rw [Option.map_some, Option.getD_some]
    cases asks hv with
    | nobody _ metrics => rw [metrics]; rfl
    | ended _ outcome _ metrics _ => rw [metrics]; simp [h]
    | cutOff _ _ metrics _ => rw [metrics]; rfl

/-- Every call to a provider is counted, unless it was cut off. -/
theorem countP_provider (d : Dispatched) (flow : String) :
    d.exchange.metrics.countP (MetricEvent.isIdentityCall flow) +
        (if d.mapping.flow.label = flow && d.cutOff then 1 else 0) =
      if d.mapping.flow.label = flow then d.exchange.calls.length else 0 := by
  have hcounter : ∀ e, MetricEvent.isIdentityCall flow e = true → e.isCounter = true := by
    intro e he
    cases e <;> first | rfl | cases he
  have hdenial : MetricEvent.isIdentityCall flow d.mapping.denial = false := rfl
  have hanswered : ∀ status, MetricEvent.isIdentityCall flow (d.answered status) = false :=
    fun _ => rfl
  have hexchange : d.exchange.metrics.countP (MetricEvent.isIdentityCall flow) =
      d.asked.countP (MetricEvent.isIdentityCall flow) := by
    rw [countP_exchange hcounter]
    cases d.status? <;> simp [hdenial, hanswered]
  rw [hexchange, calls_exchange]
  unfold asked cutOff
  cases hv : d.verdict? with
  | none => simp
  | some v =>
    rw [Option.map_some, Option.map_some, Option.getD_some, Option.getD_some, Option.any_some]
    cases asks hv with
    | nobody calls metrics => simp [calls, metrics]
    | ended call outcome calls metrics decision =>
      by_cases hflow : d.mapping.flow.label = flow <;>
        simp [calls, metrics, decision, MetricEvent.isIdentityCall, hflow]
    | cutOff call calls metrics decision => simp [calls, metrics, decision]

theorem count_request (d : Dispatched) (name method : String) (status : Nat) :
    d.exchange.metrics.countP (· == .request name method status) =
      if d.mapping.name = name ∧ d.request.method.text = method ∧ d.status? = some status then 1
      else 0 := by
  have hcounter : ∀ e, (e == MetricEvent.request name method status) = true →
      e.isCounter = true := by
    intro e he
    rw [eq_of_beq he]
    rfl
  have hdenial : (d.mapping.denial == .request name method status) = false := rfl
  rw [countP_exchange hcounter, countP_asked fun _ _ => rfl, hdenial]
  cases d.status? with
  | none => simp
  | some code => simp [answered]

theorem count_requests (d : Dispatched) :
    d.exchange.metrics.countP MetricEvent.isRequest = if d.status?.isSome then 1 else 0 := by
  have hcounter : ∀ e, MetricEvent.isRequest e = true → e.isCounter = true := by
    intro e he
    cases e <;> first | rfl | cases he
  have hdenial : MetricEvent.isRequest d.mapping.denial = false := rfl
  have hanswered : ∀ status, MetricEvent.isRequest (d.answered status) = true := fun _ => rfl
  rw [countP_exchange hcounter, countP_asked fun _ _ => rfl, hdenial]
  cases d.status? <;> simp [hanswered]

theorem count_denial (d : Dispatched) (m : Mapping) :
    d.exchange.metrics.countP (· == m.denial) =
      if d.mapping.denial = m.denial ∧ d.denied = true then 1 else 0 := by
  have hcounter : ∀ e, (e == m.denial) = true → e.isCounter = true := by
    intro e he
    rw [eq_of_beq he]
    rfl
  have hanswered : ∀ status, (d.answered status == m.denial) = false := fun _ => rfl
  rw [countP_exchange hcounter, countP_asked fun _ _ => rfl]
  cases d.status? <;> cases d.denied <;> simp [hanswered]

/-- A request that was cut off while a provider was asked has no answer. -/
theorem status?_of_cutOff (h : d.cutOff = true) : d.status? = none := by
  unfold cutOff verdict? at h
  unfold status? exchange
  rw [Gateway.dispatch_response, Option.map_eq_none_iff]
  unfold Gateway.uncounted
  cases hcheck : d.request.check with
  | error e =>
    rw [hcheck] at h
    cases h
  | ok u =>
    rw [hcheck, Option.any_some, decide_eq_true_eq] at h
    obtain ⟨hdecision, -⟩ := h
    have hserved : (d.gateway.served d.surroundings d.mapping d.request).2.1 = .outOfTime := by
      unfold Gateway.served
      dsimp only
      rw [hdecision]
    show (d.gateway.handle d.surroundings d.mapping d.request).response = none
    rw [Gateway.handle_eq]
    dsimp only
    rw [hserved]
    rfl

theorem calls_of_flow (honeShot : d.mapping.flow.label ≠ OneShot.label)
    (hexchange : d.mapping.flow.label ≠ TokenExchange.label) : d.exchange.calls = [] := by
  rw [calls_exchange]
  unfold verdict?
  cases d.request.check with
  | error e => rfl
  | ok u => exact Mapping.calls_of_flow _ _ _ _ _ honeShot hexchange

/-- A token cookie that holds is enough. -/
theorem calls_of_cookie {client : ExchangeClient} {token : String}
    (hflow : d.mapping.flow = .tokenExchange client)
    (hcookie : TokenExchange.CookieHolds client d.surroundings.identity d.request.headers token) :
    d.exchange.calls = [] := by
  rw [calls_exchange]
  unfold verdict?
  cases d.request.check with
  | error e => rfl
  | ok u =>
    show (Mapping.authorize ..).calls = []
    unfold Mapping.authorize
    rw [hflow]
    exact (TokenExchange.authorize_ends.of_cookie hcookie).1

end Dispatched

end AccessGateway

import AccessGateway.Proofs.Metrics.Counting
import AccessGateway.Settings.Validation

/-!
# What the counters count

Over a run of requests the counters add up what each exchange counts.  With accepted settings the
mappings have different names, so that a series of refusals belongs to one mapping.  An exchange
that is cut off adds what was counted before: neither its request nor a provider that has not
answered yet.

## Results

* `Validation.nodup_names`, `MappingTable.denial_inj` — refusals of two mappings are counted apart.
* `Dispatched.countP_metrics`, `Dispatched.countP_metrics_provider` — from exchanges to runs.
* `counters_account` — every counter after any run of requests, and `counters_miss_cut_off`, its
  limit.
-/

set_option autoImplicit false

namespace AccessGateway

/-! ## Refusals of different mappings -/

namespace Validation

/-- Mappings without faults have different names. -/
theorem nodup_of_mappingFaults {ms : List MappingSettings} {index : Nat} {seen : List String}
    (h : mappingFaults index seen ms = []) :
    (ms.map (·.name)).Nodup ∧ ∀ m ∈ ms, m.name ∉ seen := by
  induction ms generalizing index seen with
  | nil => exact ⟨List.nodup_nil, nofun⟩
  | cons m ms ih =>
    unfold mappingFaults at h
    rw [List.append_eq_nil_iff, List.map_eq_nil_iff, List.append_eq_nil_iff] at h
    obtain ⟨⟨hname, -⟩, hrest⟩ := h
    obtain ⟨hnodup, hunseen⟩ := ih hrest
    have hnew : m.name ∉ seen := by
      intro hmem
      unfold nameFaults at hname
      split at hname
      · cases hname
      · simp [faultIf, hmem] at hname
    refine ⟨?_, ?_⟩
    · rw [List.map_cons, List.nodup_cons]
      refine ⟨fun hmem => ?_, hnodup⟩
      obtain ⟨m', hm', heq⟩ := List.mem_map.mp hmem
      exact hunseen m' hm' (heq ▸ List.mem_cons_self)
    · rw [List.forall_mem_cons]
      exact ⟨hnew, fun m' hm' hmem => hunseen m' hm' (List.mem_cons_of_mem _ hmem)⟩

theorem nodup_names {settings : Settings} (h : settings.isValid = true) :
    (settings.mappings.map (·.name)).Nodup := by
  unfold Settings.isValid faults at h
  rw [List.isEmpty_iff, List.append_eq_nil_iff] at h
  exact (nodup_of_mappingFaults h.2).1

end Validation

namespace MappingTable

theorem resolve_mem (t : MappingTable) (path : String) :
    t.resolve path ∈ Mapping.denyAll :: t.mappings := by
  unfold resolve
  cases hm : t.mappings.find? (·.covers path) with
  | none => exact List.mem_cons_self
  | some m => exact List.mem_cons_of_mem _ (List.mem_of_find?_eq_some hm)

/-- No settings describe the flow that turns everything away. -/
theorem label_ofSettings (m : MappingSettings) :
    (Flow.ofSettings m).label ≠ Flow.denyAll.label := by
  unfold Flow.ofSettings
  dsimp only
  split <;> simp [Flow.label]

/-- The refusals of two mappings are counted apart. -/
theorem denial_inj {ms : List MappingSettings} (hnodup : (ms.map (·.name)).Nodup)
    {m m' : Mapping} (hm : m ∈ Mapping.denyAll :: (ofSettings ms).mappings)
    (hm' : m' ∈ Mapping.denyAll :: (ofSettings ms).mappings) (h : m.denial = m'.denial) :
    m = m' := by
  obtain ⟨hname, hlabel⟩ := MetricEvent.denial.inj h
  -- names tell the mappings of the table apart, and the label of the flow the one that is not there
  obtain rfl | hm := List.mem_cons.mp hm
  · obtain rfl | hm' := List.mem_cons.mp hm'
    · rfl
    · obtain ⟨s, -, rfl⟩ := List.mem_map.mp hm'
      exact absurd hlabel.symm (label_ofSettings s)
  · obtain ⟨s, hs, rfl⟩ := List.mem_map.mp hm
    obtain rfl | hm' := List.mem_cons.mp hm'
    · exact absurd hlabel (label_ofSettings s)
    · obtain ⟨s', hs', rfl⟩ := List.mem_map.mp hm'
      exact congrArg Mapping.ofSettings (List.inj_on_of_nodup_map hnodup hs hs' hname)

end MappingTable

/-! ## Runs -/

namespace Gateway

/-- A run of requests, each dispatched by the gateway that the one before it left. -/
def dispatches (g : Gateway) : List (Surroundings × Request) → List Dispatched
  | [] => []
  | (w, r) :: requests => ⟨g, w, r⟩ :: (g.dispatch w r).gateway.dispatches requests

variable {g : Gateway} {requests : List (Surroundings × Request)}

theorem length_dispatches (g : Gateway) (requests : List (Surroundings × Request)) :
    (g.dispatches requests).length = requests.length := by
  induction requests generalizing g with
  | nil => rfl
  | cons x requests ih => exact congrArg (· + 1) (ih _)

/-- The mappings are the same in all of a run. -/
theorem mapping_mem {d : Dispatched} (hd : d ∈ g.dispatches requests) :
    d.mapping ∈ Mapping.denyAll :: g.table.mappings := by
  induction requests generalizing g with
  | nil => cases hd
  | cons x requests ih =>
    obtain rfl | hd := List.mem_cons.mp hd
    · exact MappingTable.resolve_mem ..
    · have hmem := ih hd
      rwa [dispatch_table] at hmem

end Gateway

namespace Dispatched

/-- Everything that a run records. -/
def metrics (run : List Dispatched) : Metrics := run.flatMap (·.exchange.metrics)

/-- The calls to providers that a flow made in a run. -/
def callsOf (flow : String) (run : List Dispatched) : List ProviderCall :=
  (run.filter (·.mapping.flow.label = flow)).flatMap (·.exchange.calls)

variable {run : List Dispatched} {series : MetricEvent → Bool} {p : Dispatched → Bool}

/-- Series that each exchange bumps at most once count the exchanges that do. -/
theorem countP_metrics
    (h : ∀ d ∈ run, d.exchange.metrics.countP series = if p d then 1 else 0) :
    (metrics run).countP series = run.countP p := by
  unfold metrics
  induction run with
  | nil => rfl
  | cons d run ih =>
    rw [List.forall_mem_cons] at h
    rw [List.flatMap_cons, List.countP_append, List.countP_cons, h.1, ih h.2, Nat.add_comm]

theorem countP_metrics_provider (flow : String) (run : List Dispatched) :
    (metrics run).countP (MetricEvent.isIdentityCall flow) +
        run.countP (fun d => d.mapping.flow.label = flow && d.cutOff) =
      (callsOf flow run).length := by
  unfold metrics callsOf
  induction run with
  | nil => rfl
  | cons d run ih =>
    have hasked := d.countP_provider flow
    rw [List.flatMap_cons, List.countP_append, List.countP_cons, List.filter_cons]
    by_cases hflow : d.mapping.flow.label = flow
    · simp only [hflow, decide_true, Bool.true_and, if_true] at hasked ih ⊢
      rw [List.flatMap_cons, List.length_append, ← hasked, ← ih]
      omega
    · simp only [hflow, decide_false, Bool.false_and, Bool.false_eq_true, if_false] at hasked ih ⊢
      rw [← ih]
      omega

end Dispatched

/-! ## Every counter -/

/-- **Counters account for every event.**  After any run of requests through a gateway with accepted
    settings: a series of the request counter counts the requests that were ruled by a mapping of
    the name, had the method and were answered with the status, and in all, the counter counts the
    requests that were answered; the refusals of a mapping, the one that turns everything away
    included, are its requests that it turned away; and the calls to the providers of a flow are
    counted, each once, but for those that were cut off, in which case there was no answer.  Flows
    without providers, and token cookies that hold, make no calls. -/
theorem counters_account (settings : Settings) (localPort : Nat)
    (hvalid : settings.isValid = true) (requests : List (Surroundings × Request)) :
    let g := Gateway.ofSettings settings localPort
    let run := g.dispatches requests
    let metrics := Dispatched.metrics run
    (∀ name method status, metrics.count (.request name method status) =
      run.countP fun d =>
        d.mapping.name = name ∧ d.request.method.text = method ∧ d.status? = some status) ∧
    metrics.total MetricEvent.isRequest + run.countP (·.status? = none) = requests.length ∧
    (∀ m ∈ Mapping.denyAll :: g.table.mappings,
      metrics.count m.denial = run.countP fun d => d.mapping = m ∧ d.denied = true) ∧
    (∀ flow, metrics.total (MetricEvent.isIdentityCall flow) +
        run.countP (fun d => d.mapping.flow.label = flow && d.cutOff) =
      (Dispatched.callsOf flow run).length) ∧
    ∀ d ∈ run,
      (d.cutOff = true → d.status? = none) ∧
      (d.mapping.flow.label ∉ [OneShot.label, TokenExchange.label] → d.exchange.calls = []) ∧
      ∀ client token, d.mapping.flow = .tokenExchange client →
        TokenExchange.CookieHolds client d.surroundings.identity d.request.headers token →
        d.exchange.calls = [] := by
  intro g run metrics
  refine ⟨fun name method status => ?_, ?_, fun m hm => ?_, fun flow => ?_, fun d hd =>
    ⟨Dispatched.status?_of_cutOff, fun hflow => ?_, fun client token => Dispatched.calls_of_cookie⟩⟩
  · refine Dispatched.countP_metrics fun d _ => ?_
    rw [Dispatched.count_request]
    simp
  · have hanswered : metrics.countP MetricEvent.isRequest = run.countP (·.status?.isSome) :=
      Dispatched.countP_metrics fun d _ => d.count_requests
    have hall := List.length_eq_countP_add_countP (·.status?.isSome) (l := run)
    rw [Metrics.total_eq, hanswered, ← Gateway.length_dispatches g requests, hall]
    simp
  · refine Dispatched.countP_metrics fun d hd => ?_
    have hsame : d.mapping.denial = m.denial ↔ d.mapping = m :=
      ⟨MappingTable.denial_inj (Validation.nodup_names hvalid) (Gateway.mapping_mem hd) hm,
        congrArg _⟩
    rw [Dispatched.count_denial]
    simp only [hsame, decide_eq_true_eq]
  · rw [Metrics.total_eq]
    exact Dispatched.countP_metrics_provider flow run
  · rw [List.mem_cons, List.mem_singleton, not_or] at hflow
    exact Dispatched.calls_of_flow hflow.1 hflow.2

/-! ## Reports

Reports are for readers, and a provider may make a browser one for a single request. -/

namespace Reports

def settings : Settings :=
  { mappings := [{
      name := "reports", contextRoot := "/reports", flow := .oneShot
      deniedAccessUrl := some "http://idp.local/oneshot", restrictedToRoles := ["reader"]
      backend := { host := "backend" } }] }

/-- The provider is asked by a browser without a session. -/
def surroundings (reply : Reply ProviderAnswer) : Surroundings :=
  { arrival := 0, decided := 0, answered := 0, date := 0
    freshSession := "s", freshRequest := "q"
    identity := ⟨fun _ => reply, fun _ => some false⟩
    backend := fun _ => .noAnswer }

def request : Request := ⟨.get, ⟨none, "", "/reports"⟩, .http11, .empty, .empty⟩

/-- Requests for reports, during which the provider replies as given. -/
def run (replies : List (Reply ProviderAnswer)) : List Dispatched :=
  (Gateway.ofSettings settings 8080).dispatches (replies.map fun reply =>
    (surroundings reply, request))

end Reports

/-- The provider rejects a first request, cannot be talked to for a second one, and lets a third one
    wait until its time is over. -/
theorem counters_account_reports :
    let metrics := Dispatched.metrics
      (Reports.run [.answer ⟨.forbidden, [], []⟩, .failure "reset", .outOfTime])
    Reports.settings.isValid = true ∧
    metrics.count (.request "reports" "GET" 403) = 1 ∧
    metrics.total MetricEvent.isRequest + 1 = 3 ∧
    metrics.count (.denial "reports" "oneshot") = 1 ∧
    metrics.total (MetricEvent.isIdentityCall "oneshot") + 1 = 3 := by
  intro metrics
  have hvalid : Reports.settings.isValid = true := by decide +kernel
  obtain ⟨hrequest, htotal, hdenial, hidentity, -⟩ :=
    counters_account Reports.settings 8080 hvalid
      ([.answer ⟨.forbidden, [], []⟩, .failure "reset", .outOfTime].map fun reply =>
        (Reports.surroundings reply, Reports.request))
  refine ⟨hvalid, ?_, ?_, ?_, ?_⟩
  · refine (hrequest "reports" "GET" 403).trans ?_
    decide +kernel
  · refine Eq.trans ?_ htotal
    decide +kernel
  · refine (hdenial (Mapping.ofSettings (Reports.settings.mappings.head (by decide)))
      (by decide +kernel)).trans ?_
    decide +kernel
  · refine Eq.trans ?_ (hidentity "oneshot")
    decide +kernel

/-- A request that is cut off while its provider is asked is not counted, nor is the call. -/
theorem counters_miss_cut_off :
    let run := Reports.run [.outOfTime]
    let metrics := Dispatched.metrics run
    Reports.settings.isValid = true ∧
    run.length = 1 ∧ metrics.total MetricEvent.isRequest = 0 ∧
    (Dispatched.callsOf OneShot.label run).length = 1 ∧
    metrics.total (MetricEvent.isIdentityCall OneShot.label) = 0 := by
  decide +kernel

end AccessGateway

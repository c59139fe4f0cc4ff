import AccessGateway.Proofs.Access.Admission
import AccessGateway.Proofs.Gateway.Run
import AccessGateway.Proofs.Relay.Propagation

/-!
# The gate

Whatever requests came before, and whatever providers and backends do, a request reaches a backend
only through the mapping that rules its path, and only if that mapping admits it.

## Results

* `MappingTable.resolve_of_first`, `MappingTable.first_or_denyAll` — the mapping that rules a path
  is the first one whose context root starts it.
* `Gateway.mem_dispatch_sent` — what a request sends, in every state of the gateway.
* `sent_iff_admitted` — the gate, after every run.
-/

set_option autoImplicit false

namespace AccessGateway

/-! ## The mapping of a path -/

/-- The first of the mappings whose context root starts a path. -/
def MappingSettings.IsFirst (ms : List MappingSettings) (path : String) (m : MappingSettings) :
    Prop :=
  ∃ before after, ms = before ++ m :: after ∧ m.contextRoot.toList <+: path.toList ∧
    ∀ other ∈ before, ¬other.contextRoot.toList <+: path.toList

namespace MappingTable

variable {ms : List MappingSettings} {path : String} {m : MappingSettings}

theorem covers_ofSettings :
    (Mapping.ofSettings m).covers path = true ↔ m.contextRoot.toList <+: path.toList :=
  List.isPrefixOf_iff_prefix

theorem resolve_of_first (h : MappingSettings.IsFirst ms path m) :
    (ofSettings ms).resolve path = .ofSettings m := by
  obtain ⟨before, after, rfl, hm, hbefore⟩ := h
  have hfind : (before ++ m :: after).find? ((·.covers path) ∘ Mapping.ofSettings) = some m := by
    refine List.find?_eq_some_iff_append.mpr ⟨covers_ofSettings.mpr hm, before, after, rfl, ?_⟩
    intro other ho
    rw [Bool.not_eq_true', ← Bool.not_eq_true]
    exact fun hcovers => hbefore other ho (covers_ofSettings.mp hcovers)
  unfold resolve ofSettings
  rw [List.find?_map, hfind]
  rfl

theorem first_or_denyAll (ms : List MappingSettings) (path : String) :
    (∃ m, MappingSettings.IsFirst ms path m) ∨ (ofSettings ms).resolve path = .denyAll := by
  cases hfind : ms.find? ((·.covers path) ∘ Mapping.ofSettings) with
  | none =>
    right
    unfold resolve ofSettings
    rw [List.find?_map, hfind]
    rfl
  | some m =>
    obtain ⟨hm, before, after, rfl, hbefore⟩ := List.find?_eq_some_iff_append.mp hfind
    refine .inl ⟨m, before, after, rfl, covers_ofSettings.mp hm, fun other ho hprefix => ?_⟩
    have hother := hbefore other ho
    rw [Function.comp_apply, covers_ofSettings.mpr hprefix] at hother
    cases hother

end MappingTable

/-! ## What a request sends -/

theorem toOption_eq_some {ε α : Type} {x : Except ε α} {a : α} :
    x.toOption = some a ↔ x = .ok a := by
  cases x <;> simp [Except.toOption]

namespace Gateway

variable {g : Gateway} {w : Surroundings} {m : Mapping} {r : Request}

theorem verdict_allowed :
    (g.verdict w m r).decision = .allowed ↔
      m.Admits w.identity ⟨r.headers, r.target.path, w.arrival⟩ (g.sessionOf w r.headers) := by
  rw [← found_session]
  exact Mapping.authorize_allowed

/-- What a session and its authorization put into the request to the backend. -/
def injected (g : Gateway) (w : Surroundings) (m : Mapping) (r : Request) : Injection :=
  (g.verdict w m r).state.injection (g.verdict w m r).session r.target.path

theorem mem_handle_sent {out : Request} :
    out ∈ (g.handle w m r).sent ↔
      m.Admits w.identity ⟨r.headers, r.target.path, w.arrival⟩ (g.sessionOf w r.headers) ∧
      (g.breakers.acquire m.name w.decided).2.1.isSome = true ∧
      Outbound.request m.backend r (g.injected w m r) g.proxy g.localPort = .ok out := by
  rw [handle_sent, served_sent, ← verdict_allowed]
  by_cases hd : (g.verdict w m r).decision = .allowed
  · rw [if_pos hd, forward_sent]
    have hsame : (g.entered w m r).breakers = g.breakers := rfl
    rw [hsame]
    by_cases ha : (g.breakers.acquire m.name w.decided).2.1.isSome = true
    · rw [if_pos ha, Option.mem_toList]
      simp only [hd, ha, true_and]
      exact toOption_eq_some
    · simp [ha]
  · simp [hd]

theorem length_handle_sent_le : (g.handle w m r).sent.length ≤ 1 := by
  rw [handle_sent, served_sent]
  split
  · rw [forward_sent]
    split
    · exact Option.length_toList_le
    · exact Nat.zero_le 1
  · exact Nat.zero_le 1

/-- What a request sends: it can be relayed, its mapping admits it, the mapping's breaker gives a
    permit, and there is an address to send it to. -/
theorem mem_dispatch_sent {out : Request} :
    out ∈ (g.dispatch w r).sent ↔
      let m := g.table.resolve r.target.path
      r.check = .ok () ∧
      m.Admits w.identity ⟨r.headers, r.target.path, w.arrival⟩ (g.sessionOf w r.headers) ∧
      (g.breakers.acquire m.name w.decided).2.1.isSome = true ∧
      Outbound.request m.backend r (g.injected w m r) g.proxy g.localPort = .ok out := by
  rw [dispatch_sent]
  dsimp only
  rw [← mem_handle_sent]
  unfold uncounted
  cases r.check with
  | error e => simp
  | ok u => simp

theorem length_dispatch_sent_le : (g.dispatch w r).sent.length ≤ 1 := by
  rw [dispatch_sent]
  unfold uncounted
  split
  · exact Nat.zero_le 1
  · exact length_handle_sent_le

theorem length_dispatch_calls_le : (g.dispatch w r).calls.length ≤ 1 := by
  rw [dispatch_calls]
  unfold uncounted
  split
  · exact Nat.zero_le 1
  · rw [handle_calls]
    exact Mapping.length_calls_le _

end Gateway

/-- **The gate**: after every run, a request sends one request to a backend at most, and asks a
    provider once at most.  It sends one to an address exactly if

    * the address is the one that the first mapping has for it whose context root starts the path,
    * the gateway can relay the request,
    * the mapping's breaker gives a permit, and
    * the mapping admits it for the live session that its session cookie names, or else a fresh
      one. -/
theorem sent_iff_admitted (router : Router) (settings : Settings) (localPort : Nat)
    (events : List ServerEvent) (w : Surroundings) (r : Request) :
    let g := ((Server.new router settings localPort).run events).gateway
    let x := g.dispatch w r
    x.sent.length ≤ 1 ∧ x.calls.length ≤ 1 ∧
    ∀ target, (∃ out ∈ x.sent, out.target = target) ↔
      ∃ m, MappingSettings.IsFirst settings.mappings r.target.path m ∧
        m.backend.target r.target = .ok target ∧
        r.check = .ok () ∧
        (g.breakers.acquire m.name w.decided).2.1.isSome = true ∧
        (Mapping.ofSettings m).Admits w.identity ⟨r.headers, r.target.path, w.arrival⟩
          (g.sessionOf w r.headers) := by
  intro g x
  have htable : g.table = .ofSettings settings.mappings := Server.run_table _ events
  refine ⟨Gateway.length_dispatch_sent_le, Gateway.length_dispatch_calls_le, fun target => ?_⟩
  constructor
  · rintro ⟨out, hout, rfl⟩
    obtain ⟨hcheck, hadmits, hpermit, hrequest⟩ := Gateway.mem_dispatch_sent.mp hout
    rw [htable] at hadmits hpermit hrequest
    rcases MappingTable.first_or_denyAll settings.mappings r.target.path with ⟨m, hm⟩ | hnone
    · rw [MappingTable.resolve_of_first hm] at hadmits hpermit hrequest
      obtain ⟨target, htarget, rfl⟩ := Outbound.request_eq_ok.mp hrequest
      exact ⟨m, hm, htarget, hcheck, hpermit, hadmits⟩
    · rw [hnone] at hadmits
      exact hadmits.elim
  · rintro ⟨m, hm, htarget, hcheck, hpermit, hadmits⟩
    have hresolve : g.table.resolve r.target.path = .ofSettings m := by
      rw [htable, MappingTable.resolve_of_first hm]
    obtain ⟨out, hrequest, hout⟩ : ∃ out,
        Outbound.request m.backend r (g.injected w (.ofSettings m) r) g.proxy g.localPort =
          .ok out ∧ out.target = target :=
      ⟨_, Outbound.request_eq_ok.mpr ⟨target, htarget, rfl⟩, rfl⟩
    refine ⟨out, Gateway.mem_dispatch_sent.mpr ?_, hout⟩
    rw [hresolve]
    exact ⟨hcheck, hadmits, hpermit, hrequest⟩

end AccessGateway

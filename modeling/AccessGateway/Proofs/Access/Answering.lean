import AccessGateway.Proofs.Access.Admission

/-!
# The answers that a decision is made with

A decision may ask a provider, and have a token verified.  It looks at the answers to what it asked
only, and it asks for one thing of each kind at most.  So the answers that were given, without the
questions, make the same decision again.

## Results

* `Mapping.authorize_congr` — answers to questions that are not asked play no part.
* `Mapping.length_checks_le` — one token is verified at most.
* `Mapping.authorize_given` — the decision, made again with the answers that were given.
-/

set_option autoImplicit false

namespace AccessGateway

variable {m : Mapping} {peers peers' : IdentityPeers} {r r' : AccessRequest} {s : Session}
  {st : RequestState}

/-! ## Questions that are not asked -/

theorem OneShot.authorize_congr {url : String}
    (hcalls : ∀ call ∈ (authorize m url peers r s st).calls,
      peers'.provider call = peers.provider call) :
    authorize m url peers' r s st = authorize m url peers r s st := by
  unfold authorize at hcalls ⊢
  rcases hc : checkAndConsume m s r.now with ⟨t, _ | _⟩
  · rw [hc] at hcalls
    dsimp only at hcalls ⊢
    generalize ProviderCall.oneShot url m.name (forwardedHeaders m.headers r.headers) = call at *
    have hcall : peers'.provider call = peers.provider call := by
      refine hcalls call ?_
      split <;> exact List.mem_cons_self
    rw [hcall]
  · rfl

namespace TokenExchange

variable {client : ExchangeClient} {checks : List TokenCheck}

theorem exchange_congr
    (hcalls : ∀ call ∈ (exchange m client peers r s st checks).calls,
      peers'.provider call = peers.provider call) :
    exchange m client peers' r s st checks = exchange m client peers r s st checks := by
  unfold exchange at hcalls ⊢
  cases ha : assertion? r.headers st.workingHeaders with
  | none => rfl
  | some assertion =>
    rw [ha] at hcalls
    dsimp only at hcalls ⊢
    generalize TokenExchange.call client assertion = call at *
    have hcall : peers'.provider call = peers.provider call := by
      refine hcalls call ?_
      split
      · exact List.mem_cons_self
      · exact List.mem_cons_self
      · split <;> exact List.mem_cons_self
    rw [hcall]

theorem exchange_checks : (exchange m client peers r s st checks).checks = checks := by
  unfold exchange
  split
  · rfl
  · dsimp only
    split
    · rfl
    · rfl
    · split <;> rfl

theorem authorize_congr
    (hcalls : ∀ call ∈ (authorize m client peers r s st).calls,
      peers'.provider call = peers.provider call)
    (hchecks : ∀ check ∈ (authorize m client peers r s st).checks,
      peers'.accepts check = peers.accepts check) :
    authorize m client peers' r s st = authorize m client peers r s st := by
  unfold authorize at hcalls hchecks ⊢
  cases hc : check? client r.headers with
  | none =>
    rw [hc] at hcalls
    exact exchange_congr hcalls
  | some check =>
    rw [hc] at hcalls hchecks
    dsimp only at hcalls hchecks ⊢
    have hcheck : peers'.accepts check = peers.accepts check := by
      refine hchecks check ?_
      split
      · exact List.mem_cons_self
      · exact List.mem_cons_self
      · rw [exchange_checks]
        exact List.mem_cons_self
    rw [hcheck]
    split
    · rfl
    · rfl
    · rename_i haccepts
      rw [haccepts] at hcalls
      exact exchange_congr hcalls

theorem length_checks_le : (authorize m client peers r s st).checks.length ≤ 1 := by
  unfold authorize
  split
  · rw [exchange_checks]
    exact Nat.zero_le 1
  · split
    · exact Nat.le_refl 1
    · exact Nat.le_refl 1
    · rw [exchange_checks]
      exact Nat.le_refl 1

end TokenExchange

namespace OneShot

theorem authorize_checks {url : String} : (authorize m url peers r s st).checks = [] := by
  unfold authorize
  split
  · rfl
  · dsimp only
    split <;> rfl

end OneShot

namespace Mapping

/-- A decision is the same with peers that answer alike what it asks. -/
theorem authorize_congr
    (hcalls : ∀ call ∈ (m.authorize peers r s st).calls,
      peers'.provider call = peers.provider call)
    (hchecks : ∀ check ∈ (m.authorize peers r s st).checks,
      peers'.accepts check = peers.accepts check) :
    m.authorize peers' r s st = m.authorize peers r s st := by
  unfold authorize at hcalls hchecks ⊢
  cases hflow : m.flow with
  | unauthorized => rfl
  | forbidden => rfl
  | redirect url => rfl
  | oneShot url =>
    rw [hflow] at hcalls
    exact OneShot.authorize_congr hcalls
  | tokenExchange client =>
    rw [hflow] at hcalls hchecks
    exact TokenExchange.authorize_congr hcalls hchecks
  | denyAll => rfl

theorem length_checks_le : (m.authorize peers r s st).checks.length ≤ 1 := by
  unfold authorize
  split
  · exact Nat.zero_le 1
  · exact Nat.zero_le 1
  · exact Nat.zero_le 1
  · rw [OneShot.authorize_checks]
    exact Nat.zero_le 1
  · exact TokenExchange.length_checks_le
  · exact Nat.zero_le 1

end Mapping

/-! ## Answers without their questions -/

/-- What is said to a request by those that its mapping asks. -/
structure Testimony where
  /-- The reply of the provider, if one was asked. -/
  reply : Option (Reply ProviderAnswer)
  /-- What came of the verification of a token, if one was asked for. -/
  holds : Option (Option Bool)
deriving DecidableEq, Repr

namespace Testimony

/-- What peers said to the questions of a decision. -/
def given (peers : IdentityPeers) (a : Authorization) : Testimony :=
  ⟨a.calls.head?.map peers.provider, a.checks.head?.map peers.accepts⟩

/-- Peers that give these answers, whatever they are asked. -/
def asPeers (t : Testimony) : IdentityPeers :=
  ⟨fun _ => t.reply.getD .outOfTime, fun _ => t.holds.getD none⟩

end Testimony

theorem head?_map_of_mem {α β : Type} {l : List α} {a : α} (f : α → β) (hlength : l.length ≤ 1)
    (ha : a ∈ l) : l.head?.map f = some (f a) := by
  match l, hlength, ha with
  | [b], _, ha =>
    rw [List.mem_singleton.mp ha]
    rfl

/-- **A decision can be made again** with nothing but the answers that were given. -/
theorem Mapping.authorize_given :
    m.authorize (Testimony.given peers (m.authorize peers r s st)).asPeers r s st =
      m.authorize peers r s st := by
  refine authorize_congr (fun call hcall => ?_) fun check hcheck => ?_
  · unfold Testimony.given Testimony.asPeers
    dsimp only
    rw [head?_map_of_mem _ (length_calls_le st) hcall]
    rfl
  · unfold Testimony.given Testimony.asPeers
    dsimp only
    rw [head?_map_of_mem _ length_checks_le hcheck]
    rfl

/-! ## What a decision looks at in a request -/

/-- Requests with the same cookies and the same bearer that come at the same time. -/
structure AccessRequest.Alike (r r' : AccessRequest) : Prop where
  now : r'.now = r.now
  cookies : r'.headers.values .cookie = r.headers.values .cookie
  authorization : r'.headers.values .authorization = r.headers.values .authorization

/-- What a decision comes to, but for the questions it asked. -/
def Authorization.outcome (a : Authorization) : Decision × Session × RequestState :=
  (a.decision, a.session, a.state)

variable {t : Testimony}

theorem OneShot.authorize_alike (h : r.Alike r') {url : String} :
    (authorize m url t.asPeers r' s st).outcome = (authorize m url t.asPeers r s st).outcome := by
  unfold authorize
  rw [h.now]
  rcases checkAndConsume m s r.now with ⟨t', _ | _⟩
  · dsimp only [Testimony.asPeers]
    split <;> rfl
  · rfl

namespace TokenExchange

variable {client : ExchangeClient} {checks : List TokenCheck}

theorem assertion?_alike (h : r.Alike r') (working : Headers) :
    assertion? r'.headers working = assertion? r.headers working := by
  unfold assertion? bearerOf? Headers.first?
  rw [h.authorization]

theorem check?_alike (h : r.Alike r') : check? client r'.headers = check? client r.headers := by
  unfold check?
  rw [Headers.requestCookie?_congr h.cookies]

theorem exchange_alike (h : r.Alike r') :
    exchange m client t.asPeers r' s st checks = exchange m client t.asPeers r s st checks := by
  unfold exchange
  rw [assertion?_alike h, h.now]

end TokenExchange

/-- A decision looks at the cookies of a request, its bearer and its time only, besides what it
    passes on to a provider. -/
theorem Mapping.authorize_alike (h : r.Alike r') :
    (m.authorize t.asPeers r' s st).outcome = (m.authorize t.asPeers r s st).outcome := by
  unfold authorize
  cases m.flow with
  | unauthorized => rw [h.now]
  | forbidden => rw [h.now]
  | redirect url => rw [h.now]
  | oneShot url => exact OneShot.authorize_alike h
  | tokenExchange client =>
    dsimp only
    unfold TokenExchange.authorize
    rw [TokenExchange.check?_alike h, TokenExchange.exchange_alike h]
    split
    · rfl
    · split
      · rfl
      · rfl
      · rw [TokenExchange.exchange_alike h]
  | denyAll => rfl

end AccessGateway

import AccessGateway.Access.Authorize
import AccessGateway.Proofs.Session.Harvesting

/-!
# Who may pass

`Mapping.authorize` comes to a decision on the way through roles, providers and tokens.  Here the
condition to pass is stated by itself, for each flow, and the decision is shown to be exactly it.

## Results

* `Session.useAnyRole_isSome`, `Mapping.checkRoles_eq_true` — when roles open a mapping.
* `ProviderAnswer.accessToken?_eq_some` — when an exchange was successful.
* `Mapping.authorize_allowed` — a request may pass exactly if its mapping admits it.
* `Mapping.length_calls_le` — a provider is asked once at most.
-/

set_option autoImplicit false

namespace AccessGateway

/-! ## Roles -/

/-- The session holds a role that is active and is one of `required`. -/
def Session.HoldsAny (s : Session) (required : List String) (now : Instant) : Prop :=
  ∃ role ∈ s.roles, role.isActive now = true ∧ role.name ∈ required

/-- The roles of a session open the mapping. -/
def Mapping.OpenTo (m : Mapping) (s : Session) (now : Instant) : Prop :=
  m.requiredRoles = [] ∨ s.HoldsAny m.requiredRoles now

namespace Session

theorem useFirst_isSome {usable : Role → Bool} {now : Instant} {roles : List Role} :
    (useFirst usable now roles).isSome = true ↔ ∃ role ∈ roles, usable role = true := by
  induction roles with
  | nil => simp [useFirst]
  | cons role roles ih =>
    unfold useFirst
    split
    · rename_i h
      simp [h]
    · rename_i h
      simp [h, ih]

theorem useAnyRole_isSome {s : Session} {required : List String} {now : Instant} :
    (s.useAnyRole required now).isSome = true ↔ s.HoldsAny required now := by
  unfold useAnyRole HoldsAny
  rw [Option.isSome_map, useFirst_isSome]
  simp

end Session

namespace Mapping

variable {m : Mapping} {s t : Session} {now : Instant}

theorem openTo_congr (h : s.roles = t.roles) : m.OpenTo s now ↔ m.OpenTo t now := by
  unfold OpenTo Session.HoldsAny
  rw [h]

theorem checkRoles_eq_true : (m.checkRoles s now).2 = true ↔ m.OpenTo s now := by
  have hrec : m.OpenTo (s.recordAccess m.contextRoot now) now ↔ m.OpenTo s now := openTo_congr rfl
  rw [← hrec]
  unfold checkRoles OpenTo
  dsimp only
  split
  · rename_i h
    simp [h]
  · rename_i h
    rw [← Session.useAnyRole_isSome]
    split
    · rename_i hu
      simp [hu]
    · rename_i hu
      simp [h, hu]

end Mapping

/-! ## Providers -/

namespace ProviderAnswer

/-- The body of the answer is a record with the text `token` in the field `access_token`. -/
def Carries (a : ProviderAnswer) (token : String) : Prop :=
  ∃ field, (Json.parse? a.body).bind (·.fields? ["access_token"]) = some [some field] ∧
    field.text? = some token

theorem accessToken?_eq_some {a : ProviderAnswer} {token : String} :
    a.accessToken? = some token ↔ a.status = .ok ∧ token ≠ "" ∧ a.Carries token := by
  unfold accessToken? Carries
  by_cases hs : a.status = .ok
  · rw [if_pos hs]
    split
    · rename_i field hf
      rw [Option.filter_eq_some_iff, hf]
      simp only [hs, true_and, Option.some.injEq, List.cons.injEq, and_true, exists_eq_left',
        decide_eq_true_eq]
      exact and_comm
    · rename_i hn
      simp only [reduceCtorEq, false_iff, not_and]
      rintro - - ⟨field, hf, -⟩
      exact hn field hf
  · simp [hs]

end ProviderAnswer

/-! ## The condition to pass -/

/-- The condition under which a mapping lets a request of a session pass. -/
def Mapping.Admits (m : Mapping) (peers : IdentityPeers) (r : AccessRequest) (s : Session) : Prop :=
  match m.flow with
  | .unauthorized | .forbidden | .redirect _ => m.OpenTo s r.now
  | .oneShot url =>
    m.OpenTo s r.now ∨
    ∃ answer,
      peers.provider
        (.oneShot url m.name (OneShot.forwardedHeaders m.headers r.headers)) = .answer answer ∧
      -- what counts is what this answer grants to a session without roles
      (Harvest.run .fresh m.contextRoot answer.setCookies r.now).1.HoldsAny m.requiredRoles r.now
  | .tokenExchange client =>
    (∃ check, TokenExchange.check? client r.headers = some check ∧
      peers.accepts check = some true) ∨
    (∀ check, TokenExchange.check? client r.headers = some check →
      peers.accepts check = some false) ∧
    ∃ assertion answer token,
      TokenExchange.assertion? r.headers s.headers.working = some assertion ∧
      peers.provider (TokenExchange.call client assertion) = .answer answer ∧
      answer.status = .ok ∧ token ≠ "" ∧ answer.Carries token
  | .denyAll => False

theorem Decision.ofBool_allowed {b : Bool} : ofBool b = .allowed ↔ b = true := by
  cases b <;> simp [ofBool]

namespace OneShot

variable {m : Mapping} {url : String} {peers : IdentityPeers} {r : AccessRequest} {s : Session}
  {st : RequestState}

theorem checkAndConsume_eq_true {now : Instant} :
    (checkAndConsume m s now).2 = true ↔ m.OpenTo s now := Mapping.checkRoles_eq_true

theorem authorize_allowed :
    (authorize m url peers r s st).decision = .allowed ↔
      m.OpenTo s r.now ∨
      ∃ answer,
        peers.provider
          (.oneShot url m.name (forwardedHeaders m.headers r.headers)) = .answer answer ∧
        (Harvest.run .fresh m.contextRoot answer.setCookies r.now).1.HoldsAny m.requiredRoles
          r.now := by
  unfold authorize
  rcases hc : checkAndConsume m s r.now with ⟨s', _ | _⟩
  · have hclosed : ¬m.OpenTo s r.now := by
      rw [← checkAndConsume_eq_true, hc]
      exact Bool.false_ne_true
    have hempty : s'.roles = Session.fresh.roles :=
      (congrArg (·.1.roles) hc).symm
    dsimp only
    split
    · rename_i hp
      simp [hclosed, hp]
    · rename_i hp
      simp [hclosed, hp]
    · rename_i answer hp
      dsimp only
      rw [Decision.ofBool_allowed, checkAndConsume_eq_true]
      have hroles : m.OpenTo (Harvest.run s' m.contextRoot answer.setCookies r.now).1 r.now ↔
          m.OpenTo (Harvest.run .fresh m.contextRoot answer.setCookies r.now).1 r.now :=
        Mapping.openTo_congr (Harvest.run_roles hempty _ _ _)
      have hreq : m.requiredRoles ≠ [] := fun h => hclosed (.inl h)
      simp only [RequestState.absorb, hroles, hclosed, false_or, hp, Reply.answer.injEq,
        exists_eq_left']
      exact or_iff_right hreq
  · have hopen : m.OpenTo s r.now := by
      rw [← checkAndConsume_eq_true, hc]
    simp [hopen]

end OneShot

namespace TokenExchange

variable {m : Mapping} {client : ExchangeClient} {peers : IdentityPeers} {r : AccessRequest}
  {s : Session} {st : RequestState}

theorem exchange_allowed {checks : List TokenCheck} :
    (exchange m client peers r s st checks).decision = .allowed ↔
      ∃ assertion answer token, assertion? r.headers st.workingHeaders = some assertion ∧
        peers.provider (call client assertion) = .answer answer ∧
        answer.status = .ok ∧ token ≠ "" ∧ answer.Carries token := by
  simp only [← ProviderAnswer.accessToken?_eq_some]
  unfold exchange
  split
  · rename_i ha
    simp [ha]
  · rename_i assertion ha
    dsimp only
    split
    · rename_i hp
      simp [ha, hp]
    · rename_i hp
      simp [ha, hp]
    · rename_i answer hp
      split
      · rename_i ht
        simp [ha, hp, ht]
      · rename_i token ht
        simp [ha, hp, ht]

theorem authorize_allowed :
    (authorize m client peers r s st).decision = .allowed ↔
      (∃ check, check? client r.headers = some check ∧ peers.accepts check = some true) ∨
      (∀ check, check? client r.headers = some check → peers.accepts check = some false) ∧
      ∃ assertion answer token, assertion? r.headers st.workingHeaders = some assertion ∧
        peers.provider (call client assertion) = .answer answer ∧
        answer.status = .ok ∧ token ≠ "" ∧ answer.Carries token := by
  unfold authorize
  split
  · rename_i hc
    rw [exchange_allowed]
    simp [hc]
  · rename_i check hc
    split
    · rename_i hk
      simp [hc, hk]
    · rename_i hk
      simp [hc, hk]
    · rename_i hk
      rw [exchange_allowed]
      simp [hc, hk]

end TokenExchange

namespace Mapping

variable {m : Mapping} {peers : IdentityPeers} {r : AccessRequest} {s : Session}

/-- **The decision is the condition**: a request may pass exactly if its mapping admits it. -/
theorem authorize_allowed :
    (m.authorize peers r s (.ofSession s)).decision = .allowed ↔ m.Admits peers r s := by
  have hroles : Decision.ofBool (m.checkRoles s r.now).2 = .allowed ↔ m.OpenTo s r.now := by
    rw [Decision.ofBool_allowed, checkRoles_eq_true]
  unfold authorize Admits
  cases m.flow with
  | unauthorized => exact hroles
  | forbidden => exact hroles
  | redirect url => exact hroles
  | oneShot url => exact OneShot.authorize_allowed
  | tokenExchange client => exact TokenExchange.authorize_allowed
  | denyAll => simp

theorem length_calls_le (st : RequestState) : (m.authorize peers r s st).calls.length ≤ 1 := by
  have hone : ∀ url, (OneShot.authorize m url peers r s st).calls.length ≤ 1 := by
    intro url
    unfold OneShot.authorize
    split
    · exact Nat.zero_le 1
    · dsimp only
      split <;> exact Nat.le_refl 1
  have hexchange : ∀ client checks,
      (TokenExchange.exchange m client peers r s st checks).calls.length ≤ 1 := by
    intro client checks
    unfold TokenExchange.exchange
    split
    · exact Nat.zero_le 1
    · dsimp only
      split
      · exact Nat.le_refl 1
      · exact Nat.le_refl 1
      · split <;> exact Nat.le_refl 1
  unfold authorize
  split
  · exact Nat.zero_le 1
  · exact Nat.zero_le 1
  · exact Nat.zero_le 1
  · exact hone _
  · unfold TokenExchange.authorize
    split
    · exact hexchange _ _
    · split
      · exact Nat.zero_le 1
      · exact Nat.zero_le 1
      · exact hexchange _ _
  · exact Nat.zero_le 1

end Mapping
end AccessGateway

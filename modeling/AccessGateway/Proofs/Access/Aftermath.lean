import AccessGateway.Access.Authorize
import AccessGateway.Proofs.Session.Keeping

/-!
# What a decision leaves behind

A decision may harvest the cookies of a provider's answer.  Apart from that it only notes the access
and uses roles up.

## Results

* `Mapping.harvested` — the cookies that a mapping harvests while it decides.
* `Mapping.Leaves`, `Mapping.authorize_leaves` — the session after a decision is the one before it
  with these cookies harvested, and the decision says that a provider ended the session exactly if
  a command in them does.
-/

set_option autoImplicit false

namespace AccessGateway

/-! ## The cookies that count -/

/-- The cookies of a provider's answer that a mapping harvests.  A token exchange looks at them only
    if there is a token. -/
def Mapping.cookiesOf (m : Mapping) (a : ProviderAnswer) : List HeaderValue :=
  match m.flow with
  | .tokenExchange _ => if a.accessToken?.isSome then a.setCookies else []
  | _ => a.setCookies

/-- The cookies that a mapping harvests from what came of calls to providers. -/
def Mapping.harvested (m : Mapping) (peers : IdentityPeers) (calls : List ProviderCall) :
    List HeaderValue :=
  calls.flatMap fun call =>
    match peers.provider call with
    | .answer a => m.cookiesOf a
    | _ => []

namespace Mapping

variable {m : Mapping} {peers : IdentityPeers} {r : AccessRequest} {s : Session}
  {st : RequestState}

theorem harvested_answer {call : ProviderCall} {a : ProviderAnswer}
    (h : peers.provider call = .answer a) : m.harvested peers [call] = m.cookiesOf a := by
  simp [harvested, h]

theorem harvested_failure {call : ProviderCall} (h : ∀ a, peers.provider call ≠ .answer a) :
    m.harvested peers [call] = [] := by
  unfold harvested
  rw [List.flatMap_singleton]
  split
  · rename_i a ha
    exact absurd ha (h a)
  · rfl

/-! ## Roles -/

theorem checkRoles_harvested (now : Instant) : s.Harvested (m.checkRoles s now).1 [] := by
  unfold checkRoles
  dsimp only
  split
  · exact .of_roles rfl
  · split
    · rename_i name t hu
      unfold Session.useAnyRole at hu
      obtain ⟨⟨name', roles⟩, -, heq⟩ := Option.map_eq_some_iff.mp hu
      cases heq
      exact .of_roles rfl
    · exact .of_roles rfl

theorem checkAndConsume_harvested (now : Instant) :
    s.Harvested (OneShot.checkAndConsume m s now).1 [] := by
  have hcheck : s.Harvested (m.checkRoles s now).1 [] := checkRoles_harvested now
  exact hcheck.trans (.of_roles rfl)

/-! ## Decisions -/

/-- What a decision leaves behind that was made for a session in a state, when the cookies `values`
    were harvested meanwhile. -/
structure Leaves (s : Session) (st : RequestState) (v : Authorization)
    (values : List HeaderValue) : Prop where
  session : s.Harvested v.session values
  loggedOut : v.state.loggedOut = (st.loggedOut || Harvest.endsSession values)
  /-- Working headers can only be taken away. -/
  working : ∀ e ∈ v.state.workingHeaders.entries, e ∈ st.workingHeaders.entries

/-- Nothing was harvested. -/
theorem Leaves.of_none {v : Authorization} (hs : s.Harvested v.session [])
    (hl : v.state.loggedOut = st.loggedOut)
    (hw : v.state.workingHeaders = st.workingHeaders) : Leaves s st v [] := by
  refine ⟨hs, ?_, fun e he => hw ▸ he⟩
  rw [hl, Harvest.endsSession_nil, Bool.or_false]

theorem oneShot_leaves {url : String} (hm : m.flow = .oneShot url) :
    Leaves s st (OneShot.authorize m url peers r s st)
      (m.harvested peers (OneShot.authorize m url peers r s st).calls) := by
  have hconsume : s.Harvested (OneShot.checkAndConsume m s r.now).1 [] :=
    checkAndConsume_harvested r.now
  unfold OneShot.authorize
  rcases hc : OneShot.checkAndConsume m s r.now with ⟨s', _ | _⟩
  · rw [hc] at hconsume
    dsimp only
    split
    · rename_i hp
      rw [harvested_failure (by simp [hp])]
      exact .of_none hconsume rfl rfl
    · rename_i hp
      rw [harvested_failure (by simp [hp])]
      exact .of_none hconsume rfl rfl
    · rename_i a hp
      have hcookies : m.cookiesOf a = a.setCookies := by simp [cookiesOf, hm]
      rw [harvested_answer hp, hcookies]
      refine ⟨?_, ?_, fun _ h => h⟩
      · -- roles are used before the harvest and after it
        have hrun := Session.harvested_run s' m.contextRoot a.setCookies r.now
        have hall := (hconsume.trans hrun).trans (checkAndConsume_harvested (m := m) r.now)
        rwa [List.nil_append, List.append_nil] at hall
      · show (st.loggedOut || (Harvest.run _ _ _ _).2.loggedOut) = _
        rw [Harvest.run_loggedOut]
  · rw [hc] at hconsume
    exact .of_none hconsume rfl rfl

theorem exchange_leaves {client : ExchangeClient} (hm : m.flow = .tokenExchange client)
    (checks : List TokenCheck) :
    Leaves s st (TokenExchange.exchange m client peers r s st checks)
      (m.harvested peers (TokenExchange.exchange m client peers r s st checks).calls) := by
  unfold TokenExchange.exchange
  split
  · exact .of_none (.refl s) rfl rfl
  · dsimp only
    split
    · rename_i hp
      rw [harvested_failure (by simp [hp])]
      exact .of_none (.refl s) rfl rfl
    · rename_i hp
      rw [harvested_failure (by simp [hp])]
      exact .of_none (.refl s) rfl rfl
    · rename_i a hp
      split
      · rename_i ht
        have hcookies : m.cookiesOf a = [] := by simp [cookiesOf, hm, ht]
        rw [harvested_answer hp, hcookies]
        exact .of_none (.refl s) rfl rfl
      · rename_i token ht
        have hcookies : m.cookiesOf a = a.setCookies := by simp [cookiesOf, hm, ht]
        rw [harvested_answer hp, hcookies]
        refine ⟨Session.harvested_run s m.contextRoot a.setCookies r.now, ?_, fun e he => ?_⟩
        · show (st.loggedOut || (Harvest.run _ _ _ _).2.loggedOut) = _
          rw [Harvest.run_loggedOut]
        · exact (List.mem_filter.mp he).1

/-- **A decision harvests the cookies of the provider it asked**, and leaves all else that a session
    keeps for others. -/
theorem authorize_leaves (peers : IdentityPeers) (r : AccessRequest) (s : Session)
    (st : RequestState) :
    Leaves s st (m.authorize peers r s st)
      (m.harvested peers (m.authorize peers r s st).calls) := by
  unfold authorize
  split
  · exact .of_none (checkRoles_harvested r.now) rfl rfl
  · exact .of_none (checkRoles_harvested r.now) rfl rfl
  · exact .of_none (checkRoles_harvested r.now) rfl rfl
  · rename_i url hm
    exact oneShot_leaves hm
  · rename_i client hm
    unfold TokenExchange.authorize
    split
    · exact exchange_leaves hm _
    · split
      · exact .of_none (.refl s) rfl rfl
      · exact .of_none (.refl s) rfl rfl
      · exact exchange_leaves hm _
  · exact .of_none (.refl s) rfl rfl

end Mapping
end AccessGateway

import AccessGateway.Proofs.Access.Admission
import Mathlib.Data.List.Basic

/-!
# Decisions by token

A mapping with token exchange looks at the browser's token cookie first.  If that does not hold, it
exchanges a bearer token of the request, or else one that the session keeps, for a token of its own.
Whatever comes of it, nothing has changed when the request is turned away.

## Results

* `Headers.Bears`, `TokenExchange.assertion?_eq_some` — the bearer token that is exchanged.
* `TokenExchange.Ends`, `TokenExchange.authorize_ends` — all that a decision by token can be.
* `exchange_turns_away_unchanged` — when a request may pass, whom the decision asks, and what a
  request that is turned away leaves behind.
-/

set_option autoImplicit false

namespace AccessGateway

/-! ## Bearer tokens -/

/-- The first authorization value is a bearer token that is not blank. -/
def Headers.Bears (h : Headers) (token : String) : Prop :=
  ∃ value rest, h.first? .authorization = some value ∧ value.text? = some (bearerMark ++ rest) ∧
    token = Text.trimmed rest ∧ token ≠ ""

theorem HeaderValue.bearerToken?_eq_some {value : HeaderValue} {token : String} :
    value.bearerToken? = some token ↔
      ∃ rest, value.text? = some (bearerMark ++ rest) ∧ token = Text.trimmed rest ∧ token ≠ "" := by
  unfold bearerToken? Text.trimmed
  simp only [Option.bind_eq_bind, Option.bind_eq_some_iff, List.isPrefixOf?_eq_some_iff_append_eq]
  constructor
  · rintro ⟨text, htext, rest, hrest, htoken⟩
    have heq : text = bearerMark ++ String.ofList rest := by
      rw [← String.toList_inj, ← hrest, String.toList_append, String.toList_ofList]
    split at htoken
    · cases htoken
    · rename_i hne
      cases htoken
      refine ⟨String.ofList rest, heq ▸ htext, ?_, ?_⟩
      · rw [String.toList_ofList]
      · rw [ne_eq, String.ofList_eq_empty_iff]
        exact hne
  · rintro ⟨rest, htext, rfl, hne⟩
    refine ⟨_, htext, rest.toList, ?_, ?_⟩
    · rw [String.toList_append]
    · rw [if_neg fun hnil => hne (by rw [hnil])]

namespace TokenExchange

theorem bearerOf?_eq_some {h : Headers} {token : String} :
    bearerOf? h = some token ↔ h.Bears token := by
  unfold bearerOf? Headers.Bears
  rw [Option.bind_eq_some_iff]
  simp only [HeaderValue.bearerToken?_eq_some]
  constructor
  · rintro ⟨value, hvalue, rest, htoken⟩
    exact ⟨value, rest, hvalue, htoken⟩
  · rintro ⟨value, rest, hvalue, htoken⟩
    exact ⟨value, hvalue, rest, htoken⟩

/-- The bearer token to exchange: the request's, else the one of the working headers. -/
def IsAssertion (request working : Headers) (assertion : String) : Prop :=
  request.Bears assertion ∨ (∀ other, ¬request.Bears other) ∧ working.Bears assertion

theorem assertion?_eq_some {request working : Headers} {assertion : String} :
    assertion? request working = some assertion ↔ IsAssertion request working assertion := by
  have hnone : bearerOf? request = none ↔ ∀ other, ¬request.Bears other := by
    simp only [← bearerOf?_eq_some]
    exact Option.eq_none_iff_forall_ne_some
  unfold assertion? IsAssertion
  rw [← bearerOf?_eq_some, ← bearerOf?_eq_some, ← hnone]
  cases bearerOf? request with
  | none => simp
  | some other => simp

theorem IsAssertion.unique {request working : Headers} {a b : String}
    (ha : IsAssertion request working a) (hb : IsAssertion request working b) : a = b := by
  have h := (assertion?_eq_some.mpr ha).symm.trans (assertion?_eq_some.mpr hb)
  exact Option.some.inj h

/-! ## Token cookies -/

/-- The browser's token cookie holds: there is an address of keys, and the token is accepted with
    the keys from there, for this client. -/
def CookieHolds (client : ExchangeClient) (peers : IdentityPeers) (request : Headers)
    (token : String) : Prop :=
  request.requestCookie? jwtCookie = some token ∧
    ∃ url, client.certificateUrl = some url ∧
      peers.accepts ⟨token, url, some client.clientId⟩ = some true

/-- The browser's token cookie fails: it is missing, there is no address of keys, or the token is
    refused with the keys from there. -/
def CookieFails (client : ExchangeClient) (peers : IdentityPeers) (request : Headers) : Prop :=
  ∀ token url, request.requestCookie? jwtCookie = some token →
    client.certificateUrl = some url →
      peers.accepts ⟨token, url, some client.clientId⟩ = some false

variable {m : Mapping} {client : ExchangeClient} {peers : IdentityPeers} {r : AccessRequest}
  {s : Session} {st : RequestState}

theorem check?_eq_some {request : Headers} {check : TokenCheck} :
    check? client request = some check ↔
      ∃ token url, request.requestCookie? jwtCookie = some token ∧
        client.certificateUrl = some url ∧ check = ⟨token, url, some client.clientId⟩ := by
  unfold check?
  simp only [Option.bind_eq_bind, Option.bind_eq_some_iff, Option.some.injEq]
  constructor
  · rintro ⟨token, htoken, url, hurl, rfl⟩
    exact ⟨token, url, htoken, hurl, rfl⟩
  · rintro ⟨token, url, htoken, hurl, rfl⟩
    exact ⟨token, htoken, url, hurl, rfl⟩

theorem CookieHolds.not_fails {request : Headers} {token : String}
    (h : CookieHolds client peers request token) : ¬CookieFails client peers request := by
  obtain ⟨hcookie, url, hurl, haccepts⟩ := h
  intro hfails
  rw [hfails token url hcookie hurl] at haccepts
  cases haccepts

theorem cookieFails_iff {request : Headers} : CookieFails client peers request ↔
    ∀ check, check? client request = some check → peers.accepts check = some false := by
  simp only [check?_eq_some]
  constructor
  · rintro h check ⟨token, url, hcookie, hurl, rfl⟩
    exact h token url hcookie hurl
  · intro h token url hcookie hurl
    exact h _ ⟨token, url, hcookie, hurl, rfl⟩

/-! ## How a decision ends -/

/-- The ways in which a decision by token ends. -/
inductive Ends (m : Mapping) (client : ExchangeClient) (peers : IdentityPeers)
    (r : AccessRequest) (s : Session) (st : RequestState) (v : Authorization) : Prop where
  /-- The token cookie holds. -/
  | cookie (token : String) (holds : CookieHolds client peers r.headers token)
      (decision : v.decision = .allowed) (calls : v.calls = []) (session : v.session = s)
      (state : v.state = { st with accessToken := some token })
  /-- The time is over before the keys for the token cookie are there. -/
  | unverified (check : TokenCheck) (asked : check? client r.headers = some check)
      (pending : peers.accepts check = none)
      (decision : v.decision = .outOfTime) (calls : v.calls = []) (session : v.session = s)
      (state : v.state = st)
  /-- There is nothing to exchange. -/
  | noAssertion (refused : CookieFails client peers r.headers)
      (missing : ∀ assertion, ¬IsAssertion r.headers st.workingHeaders assertion)
      (decision : v.decision = .denied) (calls : v.calls = []) (session : v.session = s)
      (state : v.state = st)
  /-- The time is over before the provider answers. -/
  | outOfTime (assertion : String) (refused : CookieFails client peers r.headers)
      (found : IsAssertion r.headers st.workingHeaders assertion)
      (reply : peers.provider (call client assertion) = .outOfTime)
      (decision : v.decision = .outOfTime) (calls : v.calls = [call client assertion])
      (session : v.session = s) (state : v.state = st)
  /-- The provider cannot be talked to. -/
  | unreachable (assertion reason : String)
      (refused : CookieFails client peers r.headers)
      (found : IsAssertion r.headers st.workingHeaders assertion)
      (reply : peers.provider (call client assertion) = .failure reason)
      (decision : v.decision = .denied) (calls : v.calls = [call client assertion])
      (session : v.session = s) (state : v.state = { st with denyStatus := some .internalError })
  /-- The provider's answer has no token. -/
  | rejected (assertion : String) (answer : ProviderAnswer)
      (refused : CookieFails client peers r.headers)
      (found : IsAssertion r.headers st.workingHeaders assertion)
      (reply : peers.provider (call client assertion) = .answer answer)
      (empty : answer.accessToken? = none)
      (decision : v.decision = .denied) (calls : v.calls = [call client assertion])
      (session : v.session = s) (state : v.state = { st with denyStatus := some .unauthorized })
  /-- The provider's answer has a token. -/
  | issued (assertion token : String) (answer : ProviderAnswer)
      (refused : CookieFails client peers r.headers)
      (found : IsAssertion r.headers st.workingHeaders assertion)
      (reply : peers.provider (call client assertion) = .answer answer)
      (full : answer.accessToken? = some token)
      (decision : v.decision = .allowed) (calls : v.calls = [call client assertion])
      (session : v.session = (Harvest.run s m.contextRoot answer.setCookies r.now).1)
      (working : v.state.workingHeaders = st.workingHeaders.erase .authorization)
      (accessToken : v.state.accessToken = some token) (issuedJwt : v.state.issuedJwt = some token)

theorem exchange_ends (refused : CookieFails client peers r.headers)
    (checks : List TokenCheck) :
    Ends m client peers r s st (exchange m client peers r s st checks) := by
  unfold exchange
  split
  · rename_i ha
    refine .noAssertion refused (fun assertion hfound => ?_) rfl rfl rfl rfl
    rw [assertion?_eq_some.mpr hfound] at ha
    cases ha
  · rename_i assertion ha
    have hfound := assertion?_eq_some.mp ha
    dsimp only
    split
    · rename_i hp
      exact .outOfTime assertion refused hfound hp rfl rfl rfl rfl
    · rename_i reason hp
      exact .unreachable assertion reason refused hfound hp rfl rfl rfl rfl
    · rename_i answer hp
      split
      · rename_i ht
        exact .rejected assertion answer refused hfound hp ht rfl rfl rfl rfl
      · rename_i token ht
        exact .issued assertion token answer refused hfound hp ht rfl rfl rfl rfl rfl rfl

theorem authorize_ends : Ends m client peers r s st (authorize m client peers r s st) := by
  unfold authorize
  split
  · rename_i hc
    refine exchange_ends (cookieFails_iff.mpr fun check hcheck => ?_) _
    rw [hc] at hcheck
    cases hcheck
  · rename_i check hc
    split
    · rename_i hpending
      exact .unverified check hc hpending rfl rfl rfl rfl
    · rename_i haccepts
      obtain ⟨token, url, hcookie, hurl, rfl⟩ := check?_eq_some.mp hc
      exact .cookie token ⟨hcookie, url, hurl, haccepts⟩ rfl rfl rfl rfl
    · rename_i hrefused
      refine exchange_ends (cookieFails_iff.mpr fun other hother => ?_) _
      rw [hc] at hother
      cases hother
      exact hrefused

namespace Ends

variable {v : Authorization}

theorem of_cookie (h : Ends m client peers r s st v) {token : String}
    (hholds : CookieHolds client peers r.headers token) :
    v.calls = [] ∧ v.session = s ∧ v.state = { st with accessToken := some token } := by
  cases h with
  | cookie other holds _ calls session state =>
    have hsame : other = token := Option.some.inj (holds.1.symm.trans hholds.1)
    exact ⟨calls, session, hsame ▸ state⟩
  | unverified check asked pending _ _ _ _ =>
    obtain ⟨hcookie, url, hurl, haccepts⟩ := hholds
    rw [check?_eq_some.mpr ⟨token, url, hcookie, hurl, rfl⟩] at asked
    cases asked
    rw [pending] at haccepts
    cases haccepts
  | noAssertion refused | outOfTime _ refused | unreachable _ _ refused | rejected _ _ refused
  | issued _ _ _ refused => exact absurd refused hholds.not_fails

/-- A token cookie that neither holds nor fails is still being verified when the time is over. -/
theorem of_pending (h : Ends m client peers r s st v)
    (hfails : ¬CookieFails client peers r.headers)
    (hnone : ∀ token, ¬CookieHolds client peers r.headers token) :
    v.decision = .outOfTime ∧ v.calls = [] := by
  cases h with
  | cookie token holds _ _ _ _ => exact absurd holds (hnone token)
  | unverified _ _ _ decision calls _ _ => exact ⟨decision, calls⟩
  | noAssertion refused | outOfTime _ refused | unreachable _ _ refused | rejected _ _ refused
  | issued _ _ _ refused => exact absurd refused hfails

theorem calls_of_missing (h : Ends m client peers r s st v)
    (hnone : ∀ assertion, ¬IsAssertion r.headers st.workingHeaders assertion) : v.calls = [] := by
  cases h with
  | cookie _ _ _ calls | unverified _ _ _ _ calls | noAssertion _ _ _ calls => exact calls
  | outOfTime assertion _ found | unreachable assertion _ _ found | rejected assertion _ _ found
  | issued assertion _ _ _ found => exact absurd found (hnone assertion)

theorem calls_of_found (h : Ends m client peers r s st v)
    (hrefused : CookieFails client peers r.headers) {assertion : String}
    (hfound : IsAssertion r.headers st.workingHeaders assertion) :
    v.calls = [call client assertion] := by
  cases h with
  | cookie _ holds _ _ _ _ => exact absurd hrefused holds.not_fails
  | unverified check asked pending _ _ _ _ =>
    rw [cookieFails_iff.mp hrefused check asked] at pending
    cases pending
  | noAssertion _ missing _ _ _ _ => exact absurd hfound (missing assertion)
  | outOfTime _ _ found _ _ calls | unreachable _ _ _ found _ _ calls
  | rejected _ _ _ found _ _ _ calls | issued _ _ _ _ found _ _ _ calls =>
    rw [calls, found.unique hfound]

/-- **A request that may not pass leaves everything as it was**, but for the status of the
    answer. -/
theorem unchanged (h : Ends m client peers r s st v) (hv : v.decision ≠ .allowed) :
    v.session = s ∧ v.state = { st with denyStatus := v.state.denyStatus } := by
  cases h with
  | cookie _ _ decision | issued _ _ _ _ _ _ _ decision => exact absurd decision hv
  | unverified _ _ _ _ _ session state | noAssertion _ _ _ _ session state
  | outOfTime _ _ _ _ _ _ session state | unreachable _ _ _ _ _ _ _ session state
  | rejected _ _ _ _ _ _ _ _ session state => exact ⟨session, by rw [state]⟩

/-- The status that a request is turned away with, if none was chosen before. -/
theorem denyStatus_eq (h : Ends m client peers r s st v) (hst : st.denyStatus = none)
    (hv : v.decision = .denied) :
    ((∃ c ∈ v.calls, ∃ reason, peers.provider c = .failure reason) →
      v.state.denyStatus.getD .unauthorized = .internalError) ∧
    ((∀ c ∈ v.calls, ∀ reason, peers.provider c ≠ .failure reason) →
      v.state.denyStatus.getD .unauthorized = .unauthorized) := by
  cases h with
  | cookie _ _ decision | unverified _ _ _ decision | outOfTime _ _ _ _ decision
  | issued _ _ _ _ _ _ _ decision =>
    rw [decision] at hv
    cases hv
  | noAssertion _ _ _ calls _ state =>
    rw [calls, state, hst]
    exact ⟨fun ⟨_, hc, _⟩ => absurd hc List.not_mem_nil, fun _ => rfl⟩
  | unreachable assertion reason _ _ reply _ calls _ state =>
    rw [calls, state]
    exact ⟨fun _ => rfl, fun hnone => absurd reply (hnone _ List.mem_cons_self reason)⟩
  | rejected assertion answer _ _ reply _ _ calls _ state =>
    rw [calls, state]
    refine ⟨?_, fun _ => rfl⟩
    rintro ⟨c, hc, reason, hreason⟩
    rw [List.mem_singleton.mp hc, reply] at hreason
    cases hreason

end Ends

theorem check?_accepted {request : Headers} :
    (∃ check, check? client request = some check ∧ peers.accepts check = some true) ↔
      ∃ token, CookieHolds client peers request token := by
  simp only [check?_eq_some]
  constructor
  · rintro ⟨check, ⟨token, url, hcookie, hurl, rfl⟩, haccepts⟩
    exact ⟨token, hcookie, url, hurl, haccepts⟩
  · rintro ⟨token, hcookie, url, hurl, haccepts⟩
    exact ⟨_, ⟨token, url, hcookie, hurl, rfl⟩, haccepts⟩

end TokenExchange

/-- **A request that is turned away leaves no trace.**  A request may pass exactly if its token
    cookie holds, or else the provider gives a token for its bearer token.  The provider is asked
    once if the cookie fails and there is a bearer token, and not at all otherwise.  What does not
    pass changes nothing, and is answered with 500 if the provider could not be talked to and with
    401 otherwise.  A cookie that holds changes nothing but the token that goes on.  A cookie that
    neither holds nor fails is one whose keys are not there in time: nobody else is asked then. -/
theorem exchange_turns_away_unchanged (m : Mapping) (client : ExchangeClient)
    (hflow : m.flow = .tokenExchange client) (peers : IdentityPeers) (r : AccessRequest)
    (s : Session) (path : String) :
    let start := RequestState.ofSession s
    let v := m.authorize peers r s start
    let Accepted (token : String) := TokenExchange.CookieHolds client peers r.headers token
    let Refused := TokenExchange.CookieFails client peers r.headers
    let Bearer (assertion : String) :=
      TokenExchange.IsAssertion r.headers s.headers.working assertion
    let answered := (m.deny path v.state.denyStatus).status
    (v.decision = .allowed ↔ (∃ token, Accepted token) ∨
      Refused ∧ ∃ assertion answer token, Bearer assertion ∧
        peers.provider (TokenExchange.call client assertion) = .answer answer ∧
        answer.status = .ok ∧ token ≠ "" ∧ answer.Carries token) ∧
    ((∃ token, Accepted token) → v.calls = []) ∧
    ((∀ assertion, ¬Bearer assertion) → v.calls = []) ∧
    (∀ assertion, Refused → Bearer assertion →
      v.calls = [TokenExchange.call client assertion]) ∧
    (v.decision ≠ .allowed →
      v.session = s ∧ v.state = { start with denyStatus := v.state.denyStatus }) ∧
    (v.decision = .denied →
      ((∃ c ∈ v.calls, ∃ reason, peers.provider c = .failure reason) → answered = .internalError) ∧
      ((∀ c ∈ v.calls, ∀ reason, peers.provider c ≠ .failure reason) →
        answered = .unauthorized)) ∧
    (∀ token, Accepted token →
      v.session = s ∧ v.state = { start with accessToken := some token }) ∧
    (¬Refused → (∀ token, ¬Accepted token) → v.decision = .outOfTime ∧ v.calls = []) := by
  intro start v Accepted Refused Bearer answered
  have hauthorize : v = TokenExchange.authorize m client peers r s start := by
    show m.authorize peers r s start = _
    unfold Mapping.authorize
    rw [hflow]
  have hends : TokenExchange.Ends m client peers r s start v :=
    hauthorize ▸ TokenExchange.authorize_ends
  have hanswered : answered = v.state.denyStatus.getD .unauthorized := by
    show (m.deny path v.state.denyStatus).status = _
    unfold Mapping.deny
    rw [hflow]
    rfl
  refine ⟨?_, fun ⟨token, haccepted⟩ => (hends.of_cookie haccepted).1, hends.calls_of_missing,
    fun assertion hrefused hbearer => hends.calls_of_found hrefused hbearer, hends.unchanged,
    fun hdenied => ?_, fun token haccepted => (hends.of_cookie haccepted).2, hends.of_pending⟩
  · rw [hauthorize, TokenExchange.authorize_allowed, TokenExchange.check?_accepted,
      ← TokenExchange.cookieFails_iff]
    simp only [TokenExchange.assertion?_eq_some]
    rfl
  · rw [hanswered]
    exact hends.denyStatus_eq rfl hdenied

/-- A provider that cannot be talked to: the session stays as it was, and the answer is 500. -/
theorem exchange_turns_away_unreachable :
    let client : ExchangeClient := ⟨"http://idp/token", "portal", "secret", "idp", none⟩
    let m : Mapping := { Mapping.denyAll with flow := .tokenExchange client }
    let peers : IdentityPeers := ⟨fun _ => .failure "connection refused", fun _ => some false⟩
    let r : AccessRequest := ⟨⟨[(.authorization, ⟨Bytes.ofText "Bearer saml"⟩)]⟩, "/app", 0⟩
    let v := m.authorize peers r .fresh (.ofSession .fresh)
    m.flow = .tokenExchange client ∧ v.decision = .denied ∧ v.session = .fresh ∧
      (m.deny "/app" v.state.denyStatus).status = .internalError := by
  intro client m peers r v
  obtain ⟨-, -, -, -, hunchanged, hanswered, -⟩ :=
    exchange_turns_away_unchanged m client rfl peers r .fresh "/app"
  have hdenied : v.decision = .denied := by decide +kernel
  have hcall : TokenExchange.call client "saml" ∈ v.calls := by decide +kernel
  refine ⟨rfl, hdenied, ?_, ?_⟩
  · exact (hunchanged (by rw [hdenied]; decide)).1
  · exact (hanswered hdenied).1 ⟨_, hcall, _, rfl⟩

end AccessGateway

import AccessGateway.Proofs.Access.Exchange
import AccessGateway.Proofs.Document.Member
import AccessGateway.Proofs.Relay.Propagation
import AccessGateway.Proofs.Wire.FieldText

/-!
# The token in the place of the bearer token

After an exchange, the backend gets the provider's token and not the bearer token that was given for
it.  That holds as long as the provider's token can stand in a field.  Otherwise the authorization
fields of the browser go on as they are, with the bearer token in them.

## Results

* `HeaderValue.bearerToken?_ofBearer` — which token is read from a field that was made for one.
* `TokenExchange.Ends.of_exchanged`, `TokenExchange.authorize_issued` — what an exchange leaves
  behind.
* `Outbound.exchanged_authorization` — what a backend sees of it.
* `exchange_bearer_swapped` — both together, for every request.
* `exchange_bearer_leaked` — a token that cannot stand in a field.
-/

set_option autoImplicit false

namespace AccessGateway

/-- One of the authorization values is this bearer token. -/
def Headers.CarriesBearer (h : Headers) (token : String) : Prop :=
  ∃ value ∈ h.values .authorization, value.bearerToken? = some token

theorem Headers.Bears.carriesBearer {h : Headers} {token : String} (hb : h.Bears token) :
    h.CarriesBearer token := by
  obtain ⟨value, rest, hfirst, htext, htoken, hne⟩ := hb
  exact ⟨value, List.mem_of_head? hfirst,
    HeaderValue.bearerToken?_eq_some.mpr ⟨rest, htext, htoken, hne⟩⟩

namespace HeaderValue

theorem ofBearer?_eq (token : String) : ofBearer? token =
    if token.toList.all isFieldChar then some ⟨Bytes.ofText (bearerMark ++ token)⟩ else none := by
  have hmark : bearerMark.toList.all isFieldChar = true := by decide
  unfold ofBearer?
  rw [ofText?_eq, String.toList_append, List.all_append, hmark, Bool.true_and]

/-- A token is read again exactly if it is plain text, but for the blanks around it. -/
theorem bearerToken?_ofBearer {token other : String} :
    bearerToken? ⟨Bytes.ofText (bearerMark ++ token)⟩ = some other ↔
      (∀ c ∈ token.toList, isTextChar c = true) ∧ Text.trimmed token = other ∧ other ≠ "" := by
  have hmark : ∀ c ∈ bearerMark.toList, isTextChar c = true := by
    simp [bearerMark, isTextChar]
  rw [bearerToken?_eq_some]
  constructor
  · rintro ⟨rest, htext, rfl, hne⟩
    obtain ⟨hrest, hplain⟩ := text?_ofText_eq_some.mp htext
    have hsame : rest = token := String.append_right_inj bearerMark |>.mp hrest
    subst hsame
    refine ⟨fun c hc => hplain c ?_, rfl, hne⟩
    rw [String.toList_append]
    exact List.mem_append_right _ hc
  · rintro ⟨hplain, rfl, hne⟩
    refine ⟨token, text?_ofText_eq_some.mpr ⟨rfl, fun c hc => ?_⟩, rfl, hne⟩
    rw [String.toList_append] at hc
    exact (List.mem_append.mp hc).elim (hmark c) (hplain c)

end HeaderValue

theorem ProviderAnswer.accessToken?_member {a : ProviderAnswer} {raw : Bytes} {token : String}
    (hstatus : a.status = .ok) (hbody : a.body = Json.member (Bytes.ofText "access_token") raw)
    (hraw : Json.IsInside raw) (htoken : Json.rawText? raw = some token) (hne : token ≠ "") :
    a.accessToken? = some token := by
  have hinside : Json.IsInside (Bytes.ofText "access_token") := fun _ => rfl
  have hname : Json.rawText? (Bytes.ofText "access_token") = some "access_token" :=
    Json.rawText?_eq_some rfl (by simp)
  refine accessToken?_eq_some.mpr ⟨hstatus, hne, .string raw, ?_, htoken⟩
  rw [hbody, Json.parse?_member hinside hraw, Option.bind_some, Json.fields?_member hname]

namespace TokenExchange

variable {m : Mapping} {client : ExchangeClient} {peers : IdentityPeers} {r : AccessRequest}
  {s : Session} {v : Authorization} {token : String}

theorem IsAssertion.ne_empty {request working : Headers} {assertion : String}
    (h : IsAssertion request working assertion) : assertion ≠ "" := by
  rcases h with ⟨_, _, _, _, _, hne⟩ | ⟨-, _, _, _, _, _, hne⟩
  · exact hne
  · exact hne

/-- What lets a request pass after a provider was asked is an answer with a token. -/
theorem Ends.of_exchanged (h : Ends m client peers r s (.ofSession s) v)
    (hallowed : v.decision = .allowed) (hasked : v.calls ≠ []) :
    ∃ assertion answer token, IsAssertion r.headers s.headers.working assertion ∧
      peers.provider (call client assertion) = .answer answer ∧
      answer.accessToken? = some token ∧ v.calls = [call client assertion] ∧
      v.state.accessToken = some token ∧ v.state.issuedJwt = some token ∧
      v.state.workingHeaders = s.headers.working.erase .authorization := by
  have hfinal : ∀ d : Decision, d ≠ .allowed → v.decision ≠ d := by
    intro d hd heq
    exact hd (heq.symm.trans hallowed)
  cases h with
  | cookie _ _ _ calls _ _ => exact absurd calls hasked
  | unverified _ _ _ _ calls _ _ => exact absurd calls hasked
  | noAssertion _ _ decision _ _ _ => exact absurd decision (hfinal _ (by decide))
  | outOfTime _ _ _ _ decision _ _ _ => exact absurd decision (hfinal _ (by decide))
  | unreachable _ _ _ _ _ decision _ _ _ => exact absurd decision (hfinal _ (by decide))
  | rejected _ _ _ _ _ _ decision _ _ _ => exact absurd decision (hfinal _ (by decide))
  | issued assertion token answer _ found reply full _ calls _ working accessToken issuedJwt =>
    exact ⟨assertion, answer, token, found, reply, full, calls, accessToken, issuedJwt, working⟩

theorem authorize_issued {assertion : String} {answer : ProviderAnswer}
    (hcheck : check? client r.headers = none)
    (hfound : assertion? r.headers s.headers.working = some assertion)
    (hreply : peers.provider (call client assertion) = .answer answer)
    (hfull : answer.accessToken? = some token) :
    let v := authorize m client peers r s (.ofSession s)
    v.decision = .allowed ∧ v.calls = [call client assertion] ∧
      v.state.accessToken = some token ∧
      v.state.workingHeaders = s.headers.working.erase .authorization := by
  have hstart : assertion? r.headers (RequestState.ofSession s).workingHeaders = some assertion :=
    hfound
  unfold authorize exchange
  rw [hcheck]
  dsimp only
  rw [hstart]
  dsimp only
  rw [hreply]
  dsimp only
  rw [hfull]
  exact ⟨rfl, rfl, rfl, rfl⟩

end TokenExchange

namespace Outbound

/-- What a backend sees of a token, if there is no working header in its place. -/
theorem exchanged_authorization {st : RequestState} {token : String}
    (htoken : st.accessToken = some token)
    (hworking : st.workingHeaders.values .authorization = []) (frontend : Headers) (s : Session)
    (path : String) (settings : ProxySettings) (localPort : Nat) :
    (headers frontend (st.injection s path) settings localPort).values .authorization =
      if token.toList.all HeaderValue.isFieldChar then [⟨Bytes.ofText (bearerMark ++ token)⟩]
      else frontend.values .authorization := by
  have hsaid : token? frontend (st.injection s path) settings = some token := by
    unfold token? RequestState.injection
    rw [htoken]
    rfl
  have hinherited : inherited frontend (st.injection s path) .authorization =
      frontend.values .authorization := by
    have hcopied : isCopied .authorization = true := by decide
    unfold inherited RequestState.injection
    rw [Headers.last?_eq_none.mpr hworking, if_pos hcopied]
    rfl
  rw [headers_authorization, hsaid, hinherited, Option.bind_some, HeaderValue.ofBearer?_eq]
  split <;> rfl

end Outbound

/-- **The bearer token stays behind, if the new one can go on.**  Where an exchange lets a request
    pass, the backend sees the provider's token and nothing else as authorization, if that token can
    stand in a field.  If it cannot, the backend sees what the browser said there, and with it a
    bearer token that came from the browser. -/
theorem exchange_bearer_swapped (m : Mapping) (client : ExchangeClient) (peers : IdentityPeers)
    (frontend : Request) (now : Instant) (s : Session) (v : Authorization)
    (hv : v = TokenExchange.authorize m client peers
      ⟨frontend.headers, frontend.target.path, now⟩ s (.ofSession s))
    (hallowed : v.decision = .allowed) (hasked : v.calls ≠ []) :
    ∃ assertion answer token,
      TokenExchange.IsAssertion frontend.headers s.headers.working assertion ∧
      peers.provider (TokenExchange.call client assertion) = .answer answer ∧
      answer.accessToken? = some token ∧ v.calls = [TokenExchange.call client assertion] ∧
      v.state.accessToken = some token ∧ v.state.issuedJwt = some token ∧
      let fits := token.toList.all HeaderValue.isFieldChar = true
      ∀ (backend : BackendSettings) (settings : ProxySettings) (localPort : Nat) (sent : Request),
        Outbound.request backend frontend (v.state.injection v.session frontend.target.path)
          settings localPort = .ok sent →
        (fits → sent.headers.values .authorization = [⟨Bytes.ofText (bearerMark ++ token)⟩] ∧
          (sent.headers.CarriesBearer assertion ↔
            (∀ c ∈ token.toList, HeaderValue.isTextChar c = true) ∧
              Text.trimmed token = assertion)) ∧
        (¬fits → sent.headers.values .authorization = frontend.headers.values .authorization ∧
          (frontend.headers.Bears assertion → sent.headers.CarriesBearer assertion)) := by
  have hends := hv ▸ TokenExchange.authorize_ends
  obtain ⟨assertion, answer, token, hfound, hreply, hfull, hcalls, haccess, hissued, hworking⟩ :=
    hends.of_exchanged hallowed hasked
  refine ⟨assertion, answer, token, hfound, hreply, hfull, hcalls, haccess, hissued, ?_⟩
  intro fits backend settings localPort sent hsent
  obtain ⟨target, -, rfl⟩ := Outbound.request_eq_ok.mp hsent
  have hleft : v.state.workingHeaders.values .authorization = [] := by
    rw [hworking, Headers.values_erase, if_pos rfl]
  have hvalues := Outbound.exchanged_authorization haccess hleft frontend.headers v.session
    frontend.target.path settings localPort
  refine ⟨fun hfits => ?_, fun hfits => ?_⟩
  · rw [if_pos hfits] at hvalues
    refine ⟨hvalues, ?_⟩
    unfold Headers.CarriesBearer
    rw [hvalues]
    simp only [List.mem_singleton, exists_eq_left, HeaderValue.bearerToken?_ofBearer]
    refine and_congr_right fun _ => and_iff_left ?_
    exact hfound.ne_empty
  · rw [if_neg hfits] at hvalues
    refine ⟨hvalues, fun hbears => ?_⟩
    unfold Headers.CarriesBearer
    rw [hvalues]
    exact hbears.carriesBearer

/-- A provider that gives a token which can stand in a field for a bearer token of the browser. -/
theorem exchange_bearer_swapped_plain :
    let client : ExchangeClient := ⟨"http://idp/token", "portal", "secret", "idp", none⟩
    let answer : ProviderAnswer :=
      ⟨.ok, [], Bytes.ofText "\x7b\"access_token\":\"issued.jwt.token\"\x7d"⟩
    let peers : IdentityPeers := ⟨fun _ => .answer answer, fun _ => some false⟩
    let frontend : Request := ⟨.get, ⟨none, "", "/app"⟩, .http11,
      ⟨[(.authorization, ⟨Bytes.ofText "Bearer saml"⟩)]⟩, .empty⟩
    let v := TokenExchange.authorize .denyAll client peers
      ⟨frontend.headers, frontend.target.path, 0⟩ .fresh (.ofSession .fresh)
    v.decision = .allowed ∧ v.calls = [TokenExchange.call client "saml"] ∧
      ∃ sent, Outbound.request { host := "app" } frontend
          (v.state.injection v.session frontend.target.path) {} 8080 = .ok sent ∧
        sent.headers.values .authorization =
          [⟨Bytes.ofText (bearerMark ++ "issued.jwt.token")⟩] := by
  intro client answer peers frontend
  have hfull : answer.accessToken? = some "issued.jwt.token" :=
    @ProviderAnswer.accessToken?_member answer (Bytes.ofText "issued.jwt.token") _ rfl rfl
      (fun _ => rfl) (Json.rawText?_eq_some rfl (by simp)) (by decide)
  have hfound : TokenExchange.assertion? frontend.headers .empty = some "saml" := by decide +kernel
  obtain ⟨hdecision, hcalls, haccess, -⟩ :=
    @TokenExchange.authorize_issued .denyAll client peers
      ⟨frontend.headers, frontend.target.path, 0⟩ .fresh _ _ answer rfl hfound rfl hfull
  obtain ⟨_, _, token, -, -, -, -, htoken, -, hsent⟩ :=
    exchange_bearer_swapped .denyAll client peers frontend 0 .fresh _ rfl hdecision
      (by rw [hcalls]; exact List.cons_ne_nil _ _)
  have hsame : token = "issued.jwt.token" := Option.some.inj (htoken.symm.trans haccess)
  subst hsame
  have htarget : BackendSettings.target { host := "app" } frontend.target =
      .ok ⟨some "http", "app:80", "/app"⟩ := by decide +kernel
  refine ⟨hdecision, hcalls, _, Outbound.request_eq_ok.mpr ⟨_, htarget, rfl⟩, ?_⟩
  exact ((hsent _ _ _ _ (Outbound.request_eq_ok.mpr ⟨_, htarget, rfl⟩)).1 (by decide)).1

/-- A provider that gives a token with a line break: the request may pass, and its bearer token is
    what the backend sees. -/
theorem exchange_bearer_leaked :
    let client : ExchangeClient := ⟨"http://idp/token", "portal", "secret", "idp", none⟩
    let answer : ProviderAnswer :=
      ⟨.ok, [], Bytes.ofText "\x7b\"access_token\":\"a\\nb\"\x7d"⟩
    let peers : IdentityPeers := ⟨fun _ => .answer answer, fun _ => some false⟩
    let frontend : Request := ⟨.get, ⟨none, "", "/app"⟩, .http11,
      ⟨[(.authorization, ⟨Bytes.ofText "Bearer saml"⟩)]⟩, .empty⟩
    let v := TokenExchange.authorize .denyAll client peers
      ⟨frontend.headers, frontend.target.path, 0⟩ .fresh (.ofSession .fresh)
    v.decision = .allowed ∧ v.calls = [TokenExchange.call client "saml"] ∧
      v.state.accessToken = some "a\nb" ∧
      ∃ sent, Outbound.request { host := "app" } frontend
          (v.state.injection v.session frontend.target.path) {} 8080 = .ok sent ∧
        sent.headers.values .authorization ≠ [⟨Bytes.ofText (bearerMark ++ "a\nb")⟩] ∧
        sent.headers.CarriesBearer "saml" := by
  intro client answer peers frontend
  have hfull : answer.accessToken? = some "a\nb" :=
    @ProviderAnswer.accessToken?_member answer (Bytes.ofText "a\\nb") _ rfl rfl
      (fun _ => rfl) (Json.rawText?_eq_some rfl (by simp)) (by decide)
  have hfound : TokenExchange.assertion? frontend.headers .empty = some "saml" := by decide +kernel
  obtain ⟨hdecision, hcalls, haccess, hworking⟩ :=
    @TokenExchange.authorize_issued .denyAll client peers
      ⟨frontend.headers, frontend.target.path, 0⟩ .fresh _ _ answer rfl hfound rfl hfull
  have htarget : BackendSettings.target { host := "app" } frontend.target =
      .ok ⟨some "http", "app:80", "/app"⟩ := by decide +kernel
  have hvalues := fun s => Outbound.exchanged_authorization haccess (by rw [hworking]; rfl)
    frontend.headers s frontend.target.path {} 8080
  rw [if_neg (by decide)] at hvalues
  refine ⟨hdecision, hcalls, haccess, _, Outbound.request_eq_ok.mpr ⟨_, htarget, rfl⟩, ?_, ?_⟩
  · dsimp only
    rw [hvalues]
    decide
  · unfold Headers.CarriesBearer
    dsimp only
    rw [hvalues]
    decide +kernel

end AccessGateway

import AccessGateway.Proofs.Access.Exchange
import AccessGateway.Proofs.Gateway.Closing
import AccessGateway.Proofs.Gateway.Gate

/-!
# What comes back of a backend's answer

An answer that is relayed comes back as the backend gave it: the gateway dates it, keeps what speaks
of one connection only to itself, takes the control cookies out, and adds the cookies of its own.

## Results

* `Response.relay_same`, `Response.relay_date` — what relaying keeps of an answer, and its one date.
* `Gateway.settle_values` — the cookies for the browser touch no other field.
* `Mapping.issuedJwt_eq_some` — when a token is handed to the browser.
* `Gateway.handle_relayed` — the answer of an exchange whose backend's answer was relayed.
* `relay_transparent` — the answer to the browser, part by part.
-/

set_option autoImplicit false

namespace AccessGateway

/-! ## Relaying -/

/-- An answer as it is read from a connection: without a body if it never has one. -/
def Response.ReadFor (answer : Response) (method : Method) : Prop :=
  answer.status.isBodiless method = true → answer.body = .empty

namespace Response

variable {backend response : Response} {frontend : Version} {method : Method} {now : Timestamp}

/-- What relaying keeps beside the header fields. -/
theorem relay_same (h : backend.relay frontend method now = .ok response)
    (hread : backend.ReadFor method) :
    response.status = backend.status ∧ response.reason = backend.reason ∧
      response.body.content = backend.body.content ∧
      response.body.failure = backend.body.failure := by
  unfold relay at h
  cases hmode : BodyMode.of backend.headers frontend with
  | error e =>
    rw [hmode] at h
    cases h
  | ok mode =>
    rw [hmode] at h
    cases mode with
    | chunked =>
      cases h
      rw [Body.pumped_eq]
      exact ⟨rfl, rfl, rfl, rfl⟩
    | contentLength n =>
      cases h
      rw [Body.pumped_eq]
      exact ⟨rfl, rfl, rfl, rfl⟩
    | buffered =>
      dsimp only [bind, Except.bind] at h
      split at h
      · rename_i hbodiless
        cases h
        rw [hread hbodiless]
        exact ⟨rfl, rfl, rfl, rfl⟩
      · unfold Body.collected at h
        cases hfailure : backend.body.failure with
        | some reason =>
          rw [hfailure] at h
          cases h
        | none =>
          rw [hfailure] at h
          cases h
          exact ⟨rfl, rfl, Body.content_ofBytes _, rfl⟩

/-- A relayed answer has one date. -/
theorem relay_date (h : backend.relay frontend method now = .ok response) :
    response.headers.values .date = [(Reconcile.resolveDate backend.headers now).1] := by
  obtain ⟨length, hheaders⟩ := relay_headers h
  have hne : HeaderName.contentLength ≠ .date := by decide
  rw [hheaders, Headers.values_insertSome, if_neg fun hc => hne hc.1]
  exact Reconcile.headers_date _ _

/-- A relayed answer says nothing of a connection. -/
theorem relay_hopByHop (h : backend.relay frontend method now = .ok response) {name : HeaderName}
    (hhop : name.isHopByHop = true) : response.headers.values name = [] := by
  have hother : ∀ other : HeaderName, other.isHopByHop = false → name ≠ other := by
    rintro other hother rfl
    rw [hhop] at hother
    cases hother
  rw [relay_values h (hother _ (by decide)) (hother _ (by decide)) (hother _ (by decide)),
    if_pos hhop]

/-- A cookie is added to the others and changes nothing else. -/
theorem addCookie_eq (r : Response) (cookie : String) :
    r.addCookie cookie =
      { r with
        headers := r.headers.appendAll
          ⟨(HeaderValue.ofText? cookie).toList.map (.setCookie, ·)⟩ } := by
  unfold addCookie
  cases HeaderValue.ofText? cookie with
  | some value => rfl
  | none => simp [Headers.appendAll]

end Response

/-- Cookies that stand behind all other fields are no values of another name. -/
theorem Headers.values_withCookies (h : Headers) (added : List HeaderValue) {name : HeaderName}
    (hne : name ≠ .setCookie) :
    (h.appendAll ⟨added.map (.setCookie, ·)⟩).values name = h.values name := by
  have hmap : Headers.values ⟨added.map (.setCookie, ·)⟩ name = [] := by
    simp [Headers.values, List.filter_map, Function.comp_def, hne.symm]
  rw [values_appendAll, hmap, List.append_nil]

/-! ## Tokens for the browser -/

/-- A token is handed to the browser exactly if a provider gave it for an assertion. -/
theorem Mapping.issuedJwt_eq_some {m : Mapping} {peers : IdentityPeers} {r : AccessRequest}
    {s : Session} {token : String} :
    let v := m.authorize peers r s (.ofSession s)
    v.state.issuedJwt = some token ↔
      ∃ client assertion answer, m.flow = .tokenExchange client ∧
        v.calls = [TokenExchange.call client assertion] ∧
        peers.provider (TokenExchange.call client assertion) = .answer answer ∧
        answer.accessToken? = some token := by
  intro v
  have hother : (∀ client, m.flow ≠ .tokenExchange client) → v.state.issuedJwt = none := by
    intro hflow
    show (m.authorize peers r s (.ofSession s)).state.issuedJwt = none
    unfold authorize
    split
    · rfl
    · rfl
    · rfl
    · unfold OneShot.authorize
      split
      · rfl
      · dsimp only
        split <;> rfl
    · rename_i client hm
      exact absurd hm (hflow client)
    · rfl
  by_cases hflow : ∃ client, m.flow = .tokenExchange client
  · obtain ⟨client, hm⟩ := hflow
    have hends : TokenExchange.Ends m client peers r s (.ofSession s) v := by
      show TokenExchange.Ends m client peers r s _ (m.authorize peers r s _)
      unfold authorize
      rw [hm]
      exact TokenExchange.authorize_ends
    constructor
    · intro hissued
      cases hends with
      | cookie _ _ _ _ _ state => rw [state] at hissued; cases hissued
      | unverified _ _ _ _ _ _ state => rw [state] at hissued; cases hissued
      | noAssertion _ _ _ _ _ state => rw [state] at hissued; cases hissued
      | outOfTime _ _ _ _ _ _ _ state => rw [state] at hissued; cases hissued
      | unreachable _ _ _ _ _ _ _ _ state => rw [state] at hissued; cases hissued
      | rejected _ _ _ _ _ _ _ _ _ state => rw [state] at hissued; cases hissued
      | issued assertion given answer _ _ reply full _ calls _ _ _ issuedJwt =>
        rw [issuedJwt] at hissued
        cases hissued
        exact ⟨client, assertion, answer, hm, calls, reply, full⟩
    · rintro ⟨client', assertion, answer, hm', hcalls, hreply, htoken⟩
      rw [hm] at hm'
      cases hm'
      -- the one call that was made is the one that was answered
      have hsame : ∀ {other}, v.calls = [TokenExchange.call client other] →
          TokenExchange.call client other = TokenExchange.call client assertion :=
        fun hother => (List.cons.inj (hother.symm.trans hcalls)).1
      cases hends with
      | cookie _ _ _ calls _ _ => rw [calls] at hcalls; cases hcalls
      | unverified _ _ _ _ calls _ _ => rw [calls] at hcalls; cases hcalls
      | noAssertion _ _ _ calls _ _ => rw [calls] at hcalls; cases hcalls
      | outOfTime _ _ _ reply _ calls _ _ => rw [hsame calls, hreply] at reply; cases reply
      | unreachable _ _ _ _ reply _ calls _ _ => rw [hsame calls, hreply] at reply; cases reply
      | rejected _ _ _ _ reply empty _ calls _ _ =>
        rw [hsame calls, hreply] at reply
        cases reply
        rw [htoken] at empty
        cases empty
      | issued _ _ _ _ _ reply full _ calls _ _ _ issuedJwt =>
        rw [hsame calls, hreply] at reply
        cases reply
        rw [issuedJwt, ← full, htoken]
  · have hnone := hother fun client hm => hflow ⟨client, hm⟩
    rw [hnone]
    constructor
    · intro h
      cases h
    · rintro ⟨client, _, _, hm, _⟩
      exact absurd ⟨client, hm⟩ hflow

namespace Gateway

variable {g : Gateway} {w : Surroundings} {m : Mapping} {r : Request}

/-! ## The answer of an exchange -/

/-- The cookies for the browser are added to the answer, which is not changed otherwise. -/
theorem settle_response (id : String) (created : Bool) (issuedJwt : Option String)
    (loggedOut : Bool) (response : Response) :
    (g.settle id created issuedJwt loggedOut response).2.1 =
      { response with
        headers := response.headers.appendAll
          ⟨(g.due id created issuedJwt loggedOut).map (.setCookie, ·)⟩ } := by
  unfold settle due
  cases issuedJwt <;> cases loggedOut <;> cases created <;>
    simp [Response.addCookie_eq, Headers.appendAll]

/-- What the browser gets of an answer has no cookie yet. -/
theorem relayOf_setCookies {answer relayed : Response}
    (h : relayOf w r answer = some (.ok relayed)) : relayed.headers.values .setCookie = [] := by
  rw [Response.relay_setCookies (relay_of_relayOf h)]
  exact (Headers.values_erase _ _ _).trans (if_pos rfl)

/-- The values of a field that goes on as it came. -/
theorem relayOf_values {answer relayed : Response} (h : relayOf w r answer = some (.ok relayed))
    {name : HeaderName} (hdate : name ≠ .date) (hwarning : name ≠ .warning)
    (hcookie : name ≠ .setCookie) (hlength : name ≠ .contentLength)
    (hhop : name.isHopByHop = false) :
    relayed.headers.values name = answer.headers.values name := by
  rw [Response.relay_values (relay_of_relayOf h) hdate hwarning hlength, hhop]
  exact (Headers.values_erase _ _ _).trans (if_neg hcookie)

/-- All cookies that follow a relayed answer: those that the harvest sends on, and the gateway's
    own. -/
def following (g : Gateway) (w : Surroundings) (m : Mapping) (r : Request)
    (cookies : List HeaderValue) : List HeaderValue :=
  (Harvest.run (g.verdict w m r).session m.contextRoot cookies w.answered).2.forward ++
    g.due (g.found w r.headers).id (g.found w r.headers).created
      (g.verdict w m r).state.issuedJwt
      (Harvest.endsSession (m.harvested w.identity (g.verdict w m r).calls ++ cookies))

/-- The answer of an exchange whose backend's answer was relayed. -/
theorem handle_relayed {out : Request} {answer relayed : Response}
    (hsent : out ∈ (g.handle w m r).sent) (hvalue : w.backend out = .value answer)
    (hrelay : relayOf w r answer = some (.ok relayed)) :
    (g.handle w m r).response = some
      { relayed with
        headers := relayed.headers.appendAll
          ⟨(g.following w m r (answer.headers.values .setCookie)).map (.setCookie, ·)⟩ } := by
  have hname : (g.served w m r).1.cookieName = g.cookieName :=
    congrArg (·.2.2.1) (served_setup (g := g) (w := w) (m := m) (r := r))
  rw [handle_sent] at hsent
  rw [handle_eq]
  rcases hs : g.served w m r with ⟨after, result, sent, events⟩
  rw [hs] at hname hsent
  have hanswers : answer ∈ w.answers sent := by
    refine List.mem_filterMap.mpr ⟨out, hsent, ?_⟩
    rw [hvalue]
  rcases served_cases hs with ⟨hnone, -⟩ | ⟨only, hone, -, hresult⟩
  · rw [hnone] at hanswers
    cases hanswers
  · rw [hone] at hanswers
    cases List.mem_singleton.mp hanswers
    rcases hresult with ⟨he, -⟩ | ⟨e, he, -⟩ | ⟨response, he, rfl⟩
    · rw [hrelay] at he
      cases he
    · rw [hrelay] at he
      cases he
    · rw [hrelay] at he
      cases he
      dsimp only [BackendResult.answer?, conclude]
      rw [settle_response, verdict_loggedOut, Harvest.run_loggedOut, ← Harvest.endsSession_append]
      unfold following due
      rw [hname]
      simp [Headers.appendAll]

/-- A request that was sent to a backend was served under its mapping, with its method. -/
theorem dispatch_of_mem_sent {out : Request} (h : out ∈ (g.dispatch w r).sent) :
    (g.dispatch w r).response = (g.handle w (g.table.resolve r.target.path) r).response ∧
      (g.dispatch w r).sent = (g.handle w (g.table.resolve r.target.path) r).sent ∧
      (g.dispatch w r).calls = (g.verdict w (g.table.resolve r.target.path) r).calls ∧
      out.method = r.method := by
  obtain ⟨hcheck, -, -, hrequest⟩ := mem_dispatch_sent.mp h
  obtain ⟨target, -, hout⟩ := Outbound.request_eq_ok.mp hrequest
  obtain ⟨metrics, hx⟩ := @dispatch_of_check g w r hcheck
  refine ⟨?_, ?_, ?_, ?_⟩
  · rw [hx]
  · rw [hx]
  · rw [hx, handle_calls]
  · rw [hout]

end Gateway

/-- **The relay is transparent.**  For an answer of a backend that can be relayed, in time if its
    body is read first, the browser gets

    * its status and its reason,
    * the values of every field in their order, unless the field is a date, a warning, a cookie or
      a length or speaks of one connection only; there is exactly one date, and nothing that speaks
      of a connection,
    * the cookies that the harvest sends on, in the backend's order, then the token if this request
      exchanged one, then the session's cookie: the one that ends it if a provider or the backend
      ended the session, else the one that tells its id if this request opened it; and no other
      cookie, of a provider in particular,
    * the bytes of its body up to the failure, if it fails; none if there is never a body. -/
theorem relay_transparent (g : Gateway) (w : Surroundings) (r out : Request)
    (answer relayed : Response) (hsent : out ∈ (g.dispatch w r).sent)
    (hvalue : w.backend out = .value answer) (hread : answer.ReadFor out.method)
    (hrelay : Gateway.relayOf w r answer = some (.ok relayed)) :
    let m := g.table.resolve r.target.path
    let x := g.dispatch w r
    let found := g.found w r.headers
    let cookies := answer.headers.values .setCookie
    let harvest :=
      (Harvest.run (g.verdict w m r).session m.contextRoot cookies w.answered).2
    ∃ response issued closing, x.response = some response ∧
      response.status = answer.status ∧ response.reason = answer.reason ∧
      (∀ name, name ≠ .date → name ≠ .warning → name ≠ .setCookie → name ≠ .contentLength →
        name.isHopByHop = false →
        response.headers.values name = answer.headers.values name) ∧
      (∃ date, response.headers.values .date = [date]) ∧
      (∀ name, name.isHopByHop = true → response.headers.values name = []) ∧
      response.headers.values .setCookie =
        harvest.forward ++ Option.toList issued ++ Option.toList closing ∧
      harvest.forward.Sublist cookies ∧
      (∀ cookie, issued = some cookie ↔ ∃ client assertion given token,
        m.flow = .tokenExchange client ∧ x.calls = [TokenExchange.call client assertion] ∧
        w.identity.provider (TokenExchange.call client assertion) = .answer given ∧
        given.accessToken? = some token ∧
        HeaderValue.ofText? (BrowserCookie.token TokenExchange.jwtCookie token) = some cookie) ∧
      closing =
        (if Harvest.endsSession (m.harvested w.identity x.calls ++ cookies) then
          HeaderValue.ofText? (BrowserCookie.expired g.cookieName)
        else if found.created then
          HeaderValue.ofText? (BrowserCookie.session g.cookieName found.id)
        else none) ∧
      response.body.content = answer.body.content ∧
      response.body.failure = answer.body.failure ∧
      (answer.status.isBodiless r.method = true → response.body.content = []) := by
  intro m x found cookies harvest
  obtain ⟨hanswered, hsame, hcalls, hmethod⟩ := Gateway.dispatch_of_mem_sent hsent
  rw [hsame] at hsent
  rw [hmethod] at hread
  have hresponse := hanswered.trans (Gateway.handle_relayed hsent hvalue hrelay)
  have hforward : harvest.forward = cookies.filter (!Harvest.isControl ·) :=
    Harvest.run_forward _ _ _
  have hrelayed := Gateway.relay_of_relayOf hrelay
  obtain ⟨hstatus, hreason, hcontent, hfailure⟩ := Response.relay_same hrelayed hread
  refine ⟨_, (g.verdict w m r).state.issuedJwt.bind fun token =>
    HeaderValue.ofText? (BrowserCookie.token TokenExchange.jwtCookie token), _, hresponse,
    hstatus, hreason, ?_, ⟨(Reconcile.resolveDate (answer.headers.erase .setCookie) w.date).1, ?_⟩,
    ?_, ?_, hforward ▸ List.filter_sublist, ?_, rfl, hcontent, hfailure, ?_⟩
  · intro name hdate hwarning hcookie hlength hhop
    rw [Headers.values_withCookies _ _ hcookie]
    exact Gateway.relayOf_values hrelay hdate hwarning hcookie hlength hhop
  · rw [Headers.values_withCookies _ _ (by decide)]
    exact Response.relay_date hrelayed
  · intro name hhop
    have hne : name ≠ .setCookie := by
      rintro rfl
      exact absurd hhop (by decide)
    rw [Headers.values_withCookies _ _ hne]
    exact Response.relay_hopByHop hrelayed hhop
  · rw [Headers.values_appendAll, Headers.values_map, Gateway.relayOf_setCookies hrelay,
      List.nil_append, List.append_assoc]
    unfold Gateway.following Gateway.due
    rw [hcalls]
    congr 2
    split
    · rfl
    · split <;> rfl
  · intro cookie
    have hissued := fun token =>
      @Mapping.issuedJwt_eq_some m w.identity ⟨r.headers, r.target.path, w.arrival⟩
        (g.found w r.headers).session token
    rw [Option.bind_eq_some_iff, hcalls]
    constructor
    · rintro ⟨token, htoken, hcookie⟩
      obtain ⟨client, assertion, given, hflow, hcall, hreply, hgiven⟩ := (hissued token).mp htoken
      exact ⟨client, assertion, given, token, hflow, hcall, hreply, hgiven, hcookie⟩
    · rintro ⟨client, assertion, given, token, hflow, hcall, hreply, hgiven, hcookie⟩
      exact ⟨token, (hissued token).mpr ⟨client, assertion, given, hflow, hcall, hreply, hgiven⟩,
        hcookie⟩
  · intro hbodiless
    have hempty : answer.body = .empty := hread hbodiless
    rw [hcontent, hempty]
    rfl

/-! ## An answer that breaks off

A browser without a session asks for a page that is open to everyone.  The backend grants a role,
sets a cookie, and fails in the middle of the page. -/

namespace BrokenPage

/-- One mapping, open to everyone. -/
def gateway : Gateway :=
  .ofSettings
    { mappings := [{ name := "app", contextRoot := "/", backend := { host := "backend" } }] } 8080

/-- The page as far as it comes. -/
def answer : Response :=
  { status := .notFound, reason := some "Gone", streamed := true
    headers := ⟨[(.transferEncoding, ⟨Bytes.ofText "chunked"⟩),
      (.setCookie, ⟨Bytes.ofText "theme=dark"⟩),
      (.setCookie, ⟨Bytes.ofText "AL_CONTROL=ADD_CREDENTIALS%3Duser"⟩)]⟩
    body := ⟨[.data (Bytes.ofText "half "), .data (Bytes.ofText "a page")], some "reset"⟩ }

def surroundings : Surroundings :=
  { arrival := 0, decided := 0, answered := 0, date := 0
    freshSession := "s", freshRequest := "q"
    identity := ⟨fun _ => .outOfTime, fun _ => some false⟩
    backend := fun _ => .value answer }

def request : Request := ⟨.get, ⟨none, "", "/"⟩, .http11, .empty, .empty⟩

end BrokenPage

/-- The browser gets the page as far as it came, the backend's cookie and the session's. -/
theorem relay_transparent_broken :
    (BrokenPage.gateway.dispatch BrokenPage.surroundings BrokenPage.request).sent ≠ [] ∧
    BrokenPage.answer.ReadFor .get ∧
    ∃ response,
      (BrokenPage.gateway.dispatch BrokenPage.surroundings BrokenPage.request).response =
        some response ∧
      response.status = .notFound ∧ response.reason = some "Gone" ∧
      response.headers.values .setCookie =
        [⟨Bytes.ofText "theme=dark"⟩,
          ⟨Bytes.ofText "gateway.session=s; HttpOnly; Path=/"⟩] ∧
      response.body.content = Bytes.ofText "half a page" ∧
      response.body.failure = some "reset" := by
  have hsent : (BrokenPage.gateway.dispatch BrokenPage.surroundings BrokenPage.request).sent ≠
      [] := by
    decide +kernel
  have hread : BrokenPage.answer.ReadFor .get := by
    intro hbodiless
    revert hbodiless
    decide
  obtain ⟨out, hout⟩ := List.exists_mem_of_ne_nil _ hsent
  have hmode : BodyMode.of (BrokenPage.answer.headers.erase .setCookie) .http11 =
      .ok .chunked := by
    decide +kernel
  have hrelay := @Response.relay_chunked
    { BrokenPage.answer with headers := BrokenPage.answer.headers.erase .setCookie } .http11 .get 0
    hmode
  have hgoes : Gateway.relayOf BrokenPage.surroundings BrokenPage.request BrokenPage.answer = _ :=
    congrArg some hrelay
  have hmethod : out.method = .get := (Gateway.dispatch_of_mem_sent hout).2.2.2
  obtain ⟨response, issued, closing, hresponse, hstatus, hreason, -, -, -, hcookies, -, hissued,
      hclosing, hcontent, hfailure, -⟩ :=
    relay_transparent BrokenPage.gateway BrokenPage.surroundings BrokenPage.request out
      BrokenPage.answer _ hout rfl (hmethod ▸ hread) hgoes
  have hnone : issued = none := by
    refine Option.eq_none_iff_forall_ne_some.mpr fun cookie hcookie => ?_
    obtain ⟨client, -, -, -, hflow, -⟩ := (hissued cookie).mp hcookie
    have hopen : (BrokenPage.gateway.table.resolve "/").flow = .unauthorized := by decide +kernel
    cases hopen.symm.trans hflow
  refine ⟨hsent, hread, response, hresponse, hstatus, hreason, ?_, ?_, hfailure⟩
  · rw [hcookies, hclosing, hnone]
    decide +kernel
  · rw [hcontent]
    decide +kernel

end AccessGateway

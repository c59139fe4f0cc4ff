import AccessGateway.Proofs.Gateway.Closing

/-!
# Where the SAML endpoint sends the browser

A post to the endpoint is answered with the address behind the endpoint's path.  A browser takes an
address with one slash in front for a place on the host it came from, and one with two slashes for
another host.  The endpoint sees to the first slash only.

## Results

* `PostBinding.targetLocation_append` — the address behind the endpoint's path.
* `PostBinding.handle_answer` — how a post is answered.
* `binding_location_iff` — where a browser is sent, and when it stays on the gateway's host.
* `binding_location_leaves` — it can be sent anywhere.
-/

set_option autoImplicit false

namespace AccessGateway

namespace PostBinding

/-- A browser that is sent to the address stays on the host it came from: there is one slash in
    front, and not two. -/
def StaysOnHost (location : String) : Prop :=
  ∃ rest, location.toList = '/' :: rest ∧ rest.head? ≠ some '/'

/-- The address behind the endpoint's path is the rest of the path. -/
theorem targetLocation_append (root rest : String) :
    targetLocation (root ++ "/" ++ rest) root = "/" ++ rest := by
  have htext : (root ++ "/" ++ rest).toList = root.toList ++ '/' :: rest.toList := by
    simp [String.toList_append]
  have hbehind : root.toList.isPrefixOf? (root ++ "/" ++ rest).toList =
      some ('/' :: rest.toList) := by
    rw [List.isPrefixOf?_eq_some_iff_append_eq, htext]
  unfold targetLocation
  rw [hbehind]
  dsimp only
  rw [List.head?_cons, if_pos rfl, ← String.toList_inj, String.toList_ofList]
  simp [String.toList_append]

/-- The browser stays exactly if the rest of the path does not bring a slash of its own. -/
theorem staysOnHost_iff {rest : String} :
    StaysOnHost ("/" ++ rest) ↔ ¬∃ more, rest = "/" ++ more := by
  have htext : ("/" ++ rest).toList = '/' :: rest.toList := by simp [String.toList_append]
  have hslash : rest.toList.head? = some '/' ↔ ∃ more, rest = "/" ++ more := by
    constructor
    · intro h
      obtain ⟨more, hmore⟩ := List.head?_eq_some_iff.mp h
      refine ⟨String.ofList more, ?_⟩
      rw [← String.toList_inj, hmore]
      simp [String.toList_append]
    · rintro ⟨more, rfl⟩
      simp [String.toList_append]
  rw [← hslash]
  unfold StaysOnHost
  rw [htext]
  constructor
  · rintro ⟨_, hrest, hhead⟩
    rwa [(List.cons.inj hrest).2]
  · exact fun h => ⟨_, rfl, h⟩

variable {g : Gateway} {w : Surroundings} {root : String} {r : Request}

/-- A post is answered with the address behind the endpoint's path, or refused: its body cannot be
    read, or the address cannot stand in a header field. -/
theorem handle_answer :
    ∃ response, (handle g w root r).response = some response ∧
      ((∃ form value, form? r.body = some form ∧
        HeaderValue.ofText? (targetLocation r.target.path root) = some value ∧
        response.status = .found ∧ response.headers.values .location = [value]) ∨
      ((form? r.body = none ∨ HeaderValue.ofText? (targetLocation r.target.path root) = none) ∧
        response.status = .badRequest ∧ response.headers.values .location = [])) := by
  have hcookie : ∀ (response : Response) (cookie : String),
      (response.addCookie cookie).headers.values .location =
        response.headers.values .location := by
    intro response cookie
    unfold Response.addCookie
    split
    · rw [Headers.values_append, if_neg (by decide), List.append_nil]
    · rfl
  have hstatus : ∀ (response : Response) (cookie : String),
      (response.addCookie cookie).status = response.status := by
    intro response cookie
    unfold Response.addCookie
    split <;> rfl
  unfold handle
  cases hform : form? r.body with
  | none => exact ⟨_, rfl, .inr ⟨.inl rfl, rfl, rfl⟩⟩
  | some form =>
    dsimp only
    cases hvalue : HeaderValue.ofText? (targetLocation r.target.path root) with
    | none => exact ⟨_, rfl, .inr ⟨.inr rfl, rfl, rfl⟩⟩
    | some value =>
      refine ⟨_, rfl, .inl ⟨form, value, rfl, rfl, ?_, ?_⟩⟩
      · dsimp only
        split
        · exact hstatus _ _
        · rfl
      · dsimp only
        split
        · exact hcookie _ _
        · rfl

end PostBinding

/-- What comes of a post to the SAML endpoint. -/
theorem Server.exchange_binding {s : Server} {w : Surroundings} {r : Request} {root : String}
    (h : s.router.route r.method r.target.path = .binding root) :
    s.exchange w r = PostBinding.handle s.gateway w root (RequestId.assign w.freshRequest r) := by
  unfold exchange answer
  dsimp only
  rw [RequestId.assign_method, RequestId.assign_target, h]

/-- **Where the SAML endpoint sends the browser.**  A post whose path is the endpoint's, a slash and
    a rest is sent on to a slash and this rest, whatever the rest is, if its body can be read and
    the address can stand in a header field; else it is refused and not sent anywhere.  The browser
    stays on the gateway's host exactly if the rest does not start with a slash. -/
theorem binding_location_iff (s : Server) (w : Surroundings) (r : Request) (root rest : String)
    (hroute : s.router.route r.method r.target.path = .binding root)
    (hpath : r.target.path = root ++ "/" ++ rest) :
    let location := PostBinding.targetLocation r.target.path root
    let answer := (s.answer w r).2.2
    location = "/" ++ rest ∧
    (answer.status = .found ↔ (PostBinding.form? r.body).isSome = true ∧
      (HeaderValue.ofText? location).isSome = true) ∧
    (answer.status = .found →
      answer.headers.values .location = (HeaderValue.ofText? location).toList) ∧
    (answer.status ≠ .found → answer.headers.values .location = []) ∧
    (PostBinding.StaysOnHost location ↔ ¬∃ more, rest = "/" ++ more) := by
  intro location answer
  have hlocation : location = "/" ++ rest := by
    show PostBinding.targetLocation r.target.path root = _
    rw [hpath]
    exact PostBinding.targetLocation_append root rest
  obtain ⟨response, hresponse, hcases⟩ := @PostBinding.handle_answer s.gateway w root
    (RequestId.assign w.freshRequest r)
  rw [RequestId.assign_target, RequestId.assign_body] at hcases
  have hstatus : answer.status = response.status := by
    show (s.answer w r).2.2.status = _
    rw [Server.answer_status, Server.exchange_binding hroute, hresponse]
    rfl
  have hvalues : answer.headers.values .location = response.headers.values .location := by
    show (s.answer w r).2.2.headers.values .location = _
    rw [Server.answer_values s w r (by decide) (by decide) (by decide),
      Server.exchange_binding hroute, hresponse]
    rfl
  refine ⟨hlocation, ?_⟩
  rw [hstatus, hvalues]
  rcases hcases with ⟨form, value, hform, hvalue, hfound, hsent⟩ | ⟨hrefused, hbad, hnone⟩
  · rw [hfound, hsent, hform]
    refine ⟨?_, fun _ => ?_, fun h => absurd rfl h, ?_⟩
    · show _ ↔ _ ∧ (HeaderValue.ofText? (PostBinding.targetLocation r.target.path root)).isSome = _
      simp [hvalue]
    · show _ = (HeaderValue.ofText? (PostBinding.targetLocation r.target.path root)).toList
      rw [hvalue]
      rfl
    · rw [hlocation]
      exact PostBinding.staysOnHost_iff
  · rw [hbad, hnone]
    have hne : Status.badRequest ≠ Status.found := by decide
    refine ⟨?_, fun h => absurd h hne, fun _ => rfl, ?_⟩
    · refine iff_of_false hne ?_
      rintro ⟨hform, hvalue⟩
      rcases hrefused with h | h
      · rw [h] at hform
        cases hform
      · rw [show HeaderValue.ofText? location = none from h] at hvalue
        cases hvalue
    · rw [hlocation]
      exact PostBinding.staysOnHost_iff

/-! ## A post that leads away -/

namespace LeadingAway

/-- A server whose SAML endpoint has a path of its own. -/
def server : Server :=
  ⟨⟨some ("/saml", "/saml".toList.map .literal)⟩, .ofSettings {} 8080⟩

def surroundings : Surroundings :=
  { arrival := 0, decided := 0, answered := 0, date := 0
    freshSession := "s", freshRequest := "q"
    identity := ⟨fun _ => .outOfTime, fun _ => some false⟩
    backend := fun _ => .abandoned }

def request : Request :=
  ⟨.post, ⟨none, "", "/saml//evil.example/login"⟩, .http11, .empty, .empty⟩

end LeadingAway

/-- The post is answered with an address on another host. -/
theorem binding_location_iff_away :
    let answer := (LeadingAway.server.answer LeadingAway.surroundings LeadingAway.request).2.2
    LeadingAway.server.router.route LeadingAway.request.method LeadingAway.request.target.path =
      .binding "/saml" ∧
    LeadingAway.request.target.path = "/saml" ++ "/" ++ "/evil.example/login" ∧
    answer.status = .found ∧
    answer.headers.values .location = [⟨Bytes.ofText "//evil.example/login"⟩] := by
  intro answer
  have hroute : LeadingAway.server.router.route LeadingAway.request.method
      LeadingAway.request.target.path = .binding "/saml" := by
    decide +kernel
  have hpath : LeadingAway.request.target.path = "/saml" ++ "/" ++ "/evil.example/login" := by
    decide +kernel
  obtain ⟨hlocation, hfound, hvalues, -⟩ := binding_location_iff LeadingAway.server
    LeadingAway.surroundings LeadingAway.request "/saml" "/evil.example/login" hroute hpath
  rw [hlocation] at hfound hvalues
  have hstatus : answer.status = .found := hfound.mpr (by decide +kernel)
  refine ⟨hroute, hpath, hstatus, ?_⟩
  show (LeadingAway.server.answer _ _).2.2.headers.values .location = _
  rw [hvalues hstatus]
  decide +kernel

/-- The endpoint sends a browser to another host, if the rest of the path names one. -/
theorem binding_location_leaves :
    ¬∀ (s : Server) (w : Surroundings) (r : Request) (root rest : String),
      s.router.route r.method r.target.path = .binding root →
      r.target.path = root ++ "/" ++ rest → (s.answer w r).2.2.status = .found →
      PostBinding.StaysOnHost (PostBinding.targetLocation r.target.path root) := by
  intro h
  have hpath : LeadingAway.request.target.path = "/saml" ++ "/" ++ "/evil.example/login" := by
    decide +kernel
  have hstays := h LeadingAway.server LeadingAway.surroundings LeadingAway.request "/saml"
    "/evil.example/login" (by decide +kernel) hpath (by decide +kernel)
  rw [hpath, PostBinding.targetLocation_append] at hstays
  exact PostBinding.staysOnHost_iff.mp hstays ⟨"evil.example/login", by decide⟩

end AccessGateway

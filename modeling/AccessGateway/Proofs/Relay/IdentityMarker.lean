import AccessGateway.Proofs.Relay.Propagation

/-!
# The mark of a known browser

A backend is told by a mark that the portal knows the browser: it holds a verified token, or it
sent the cookie of the portal.  The token of an application's own cookie is passed on without it.
A browser that is not known can still send the mark itself, as its fields are copied.

## Results

* `Headers.requestCookie?_isSome`, `Outbound.isKnown_iff` — when a browser counts as known.
* `identity_marker_iff` — when a backend sees the mark, and with which values.
* `identity_marker_forged` — a browser that is not known can send the mark.
-/

set_option autoImplicit false

namespace AccessGateway

/-- The browser sent a cookie of a name, in a field that can be read. -/
def Headers.HasCookie (h : Headers) (name : String) : Prop :=
  ∃ value ∈ h.values .cookie, ∃ text, value.text? = some text ∧
    ∃ p ∈ Cookie.split text, p.1 = name

theorem Headers.requestCookie?_isSome {h : Headers} {name : String} :
    (h.requestCookie? name).isSome = true ↔ h.HasCookie name := by
  unfold requestCookie? HasCookie
  dsimp only
  rw [Option.isSome_map, List.find?_isSome]
  simp only [List.mem_flatMap, List.mem_filterMap, decide_eq_true_eq]
  constructor
  · rintro ⟨p, ⟨text, ⟨value, hvalue, htext⟩, hp⟩, hname⟩
    exact ⟨value, hvalue, text, htext, p, hp, hname⟩
  · rintro ⟨value, hvalue, text, htext, p, hp, hname⟩
    exact ⟨p, ⟨text, ⟨value, hvalue, htext⟩, hp⟩, hname⟩

namespace Outbound

variable {frontend : Headers} {injection : Injection}

theorem isKnown_iff : isKnown frontend injection = true ↔
    injection.accessToken.isSome = true ∨ frontend.HasCookie authenticationLevelCookie := by
  unfold isKnown
  rw [Bool.or_eq_true, Headers.requestCookie?_isSome]

theorem inherited_ne_nil {name : HeaderName} (hcopied : isCopied name = true) :
    inherited frontend injection name ≠ [] ↔
      injection.workingHeaders.has name = true ∨ frontend.has name = true := by
  have hworking := @Headers.last?_eq_none injection.workingHeaders name
  rw [Headers.has_eq_true, Headers.has_eq_true, ne_eq (injection.workingHeaders.values name),
    ← hworking]
  unfold inherited
  rw [if_pos hcopied]
  cases injection.workingHeaders.last? name with
  | none => simp
  | some value => simp

end Outbound

/-- **When a backend sees the mark.**  A known browser has the gateway's mark and no other value
    with it.  Of a browser that is not known, a backend sees what a working header says under the
    name of the mark, and else what the browser says there itself. -/
theorem identity_marker_iff (frontend : Headers) (injection : Injection)
    (settings : ProxySettings) (localPort : Nat) :
    let out := Outbound.headers frontend injection settings localPort
    let known := injection.accessToken.isSome = true ∨
      frontend.HasCookie Outbound.authenticationLevelCookie
    (known → out.values .portalAuthenticated = [⟨Bytes.ofText "true"⟩]) ∧
    (¬known → injection.workingHeaders.has .portalAuthenticated = false →
      out.values .portalAuthenticated = frontend.values .portalAuthenticated) ∧
    (out.has .portalAuthenticated = true ↔
      known ∨ injection.workingHeaders.has .portalAuthenticated = true ∨
        frontend.has .portalAuthenticated = true) := by
  intro out known
  have hknown : Outbound.isKnown frontend injection = true ↔ known := Outbound.isKnown_iff
  have hvalues : out.values .portalAuthenticated =
      if Outbound.isKnown frontend injection then [⟨Bytes.ofText "true"⟩]
      else Outbound.inherited frontend injection .portalAuthenticated := Outbound.headers_marker
  have hcopied : Outbound.isCopied .portalAuthenticated = true := by decide
  refine ⟨fun h => ?_, fun h hworking => ?_, ?_⟩
  · rw [hvalues, if_pos (hknown.mpr h)]
  · rw [hvalues, if_neg (mt hknown.mp h)]
    have hnone : injection.workingHeaders.last? .portalAuthenticated = none :=
      Headers.last?_eq_none.mpr (Headers.has_eq_false.mp hworking)
    unfold Outbound.inherited
    rw [hnone, if_pos hcopied]
    rfl
  · rw [Headers.has_eq_true, hvalues]
    by_cases h : known
    · rw [if_pos (hknown.mpr h)]
      simp [h]
    · rw [if_neg (mt hknown.mp h), Outbound.inherited_ne_nil hcopied]
      simp [h]

/-- A browser without a token and without any cookie sends the mark itself, and a backend sees
    it. -/
theorem identity_marker_forged :
    ¬∀ (frontend : Headers) (injection : Injection) (settings : ProxySettings) (localPort : Nat),
      injection.workingHeaders.has .portalAuthenticated = false →
      ((Outbound.headers frontend injection settings localPort).has .portalAuthenticated = true ↔
        injection.accessToken.isSome = true ∨
          frontend.HasCookie Outbound.authenticationLevelCookie) := by
  intro h
  have hforged := h ⟨[(.portalAuthenticated, ⟨Bytes.ofText "true"⟩)]⟩ .none {} 8080 rfl
  have hseen : (Outbound.headers ⟨[(.portalAuthenticated, ⟨Bytes.ofText "true"⟩)]⟩ .none {}
      8080).has .portalAuthenticated = true := by
    decide +kernel
  rcases hforged.mp hseen with htoken | hcookie
  · cases htoken
  · obtain ⟨value, hvalue, -⟩ := hcookie
    cases hvalue

end AccessGateway

import AccessGateway.Relay.Outbound

/-!
# What a backend sees under a name

`Outbound.headers` copies the browser's fields, lays the working headers over them and then puts in
what the gateway says itself.  Here its outcome is given name by name: the gateway's own value
counts first, then what was inherited from working headers or browser, and only where both are
missing a fallback.

## Results

* `Headers.values_overlay` — of the values laid over, the last of each name counts.
* `Outbound.headers_values`, `Outbound.headers_inherited` — the values under every name.
* `Outbound.headers_cookies`, `Outbound.headers_authorization`, `Outbound.headers_marker` — the
  three names under which the gateway speaks for itself.
* `Outbound.request_eq_ok` — the request that the fields go into.
-/

set_option autoImplicit false

namespace AccessGateway

/-! ## Collections of fields -/

namespace Headers

variable {h more : Headers} {name : HeaderName}

theorem first?_eq_none : h.first? name = none ↔ h.values name = [] := List.head?_eq_none_iff

theorem last?_eq_none : h.last? name = none ↔ h.values name = [] := List.getLast?_eq_none_iff

theorem has_eq_true : h.has name = true ↔ h.values name ≠ [] := by
  simp [has]

theorem has_eq_false : h.has name = false ↔ h.values name = [] := by
  simp [has]

theorem values_eq_nil : h.values name = [] ↔ ∀ e ∈ h.entries, e.1 ≠ name := by
  simp [values]

theorem values_overlay : (h.overlay more).values name =
    (more.last? name).elim (h.values name) ([·]) := by
  obtain ⟨entries⟩ := more
  -- what is laid over first is part of what the rest is laid over
  induction entries generalizing h with
  | nil => rfl
  | cons e entries ih =>
    have hrest : (h.overlay ⟨e :: entries⟩).values name = _ := ih (h := h.insert e.1 e.2)
    rw [hrest, values_insert]
    unfold last? values
    by_cases he : e.1 = name
    · rw [if_pos he, List.filter_cons_of_pos (by simpa using he), List.map_cons,
        List.getLast?_cons]
      cases ((entries.filter (·.1 = name)).map (·.2)).getLast? <;> rfl
    · rw [if_neg he, List.filter_cons_of_neg (by simpa using he)]

end Headers

/-! ## The parts of a request to a backend -/

namespace Outbound

variable {frontend : Headers} {injection : Injection} {settings : ProxySettings} {localPort : Nat}
  {name other : HeaderName}

/-- What comes from others under a name: a working header, else the fields of the browser. -/
def inherited (frontend : Headers) (injection : Injection) (name : HeaderName) :
    List HeaderValue :=
  (injection.workingHeaders.last? name).elim
    (if isCopied name then frontend.values name else []) ([·])

/-- What the gateway says under a name, whatever others say. -/
def own? (frontend : Headers) (injection : Injection) (settings : ProxySettings)
    (name : HeaderName) : Option HeaderValue :=
  if name = .cookie then injection.cookieHeader.bind HeaderValue.ofText?
  else if name = .authorization then
    (token? frontend injection settings).bind HeaderValue.ofBearer?
  else if name = .portalAuthenticated ∧ isKnown frontend injection then
    some ⟨Bytes.ofText "true"⟩
  else none

/-- What the gateway says under a name if nothing else is said there. -/
def fallback? (frontend : Headers) (settings : ProxySettings) (localPort : Nat)
    (name : HeaderName) : Option HeaderValue :=
  if name = .forwardedHost then (forwardedHost? frontend settings).bind HeaderValue.ofText?
  else if name = .forwardedPort then some (.ofNat (settings.forwardedPort.getD localPort))
  else none

/-- Values, or a fallback where there are none. -/
def filled (values : List HeaderValue) (fallback : Option HeaderValue) : List HeaderValue :=
  if values = [] then fallback.toList else values

@[simp] theorem filled_none {values : List HeaderValue} : filled values none = values := by
  unfold filled
  split
  · rename_i h
    exact h.symm
  · rfl

theorem values_merged : ((frontend.filterNames isCopied).overlay injection.workingHeaders).values
    name = inherited frontend injection name := by
  rw [Headers.values_overlay, Headers.values_filterNames, inherited]

theorem fillIn_values {h : Headers} {value : Option HeaderValue} :
    (fillIn h name value).values other =
      if name = other then filled (h.values other) value else h.values other := by
  unfold fillIn filled
  by_cases hempty : h.values name = []
  · have hhas : ¬h.has name = true := by simp [Headers.has, hempty]
    rw [if_neg hhas, Headers.values_insertSome]
    by_cases hname : name = other
    · subst hname
      cases value with
      | none => simp [hempty]
      | some v => simp [hempty]
    · simp [hname]
  · have hhas : h.has name = true := Headers.has_eq_true.mpr hempty
    rw [if_pos hhas]
    by_cases hname : name = other
    · subst hname
      simp [hempty]
    · simp [hname]

theorem insertSome_values {h : Headers} {value : Option HeaderValue} :
    (h.insertSome name value).values other =
      if name = other then value.elim (h.values other) ([·]) else h.values other := by
  cases value with
  | none => simp [Headers.insertSome]
  | some v => simp [Headers.insertSome, Headers.values_insert]

/-- **What a backend sees under a name.** -/
theorem headers_values : (headers frontend injection settings localPort).values name =
    (own? frontend injection settings name).elim
      (filled (inherited frontend injection name) (fallback? frontend settings localPort name))
      ([·]) := by
  have hmarker : ∀ (h : Headers) (value : HeaderValue),
      (if isKnown frontend injection then h.insert .portalAuthenticated value else h) =
        h.insertSome .portalAuthenticated
          (if isKnown frontend injection then some value else none) := by
    intro h value
    split <;> rfl
  unfold headers own? fallback?
  dsimp only
  rw [hmarker]
  simp only [insertSome_values, fillIn_values, values_merged]
  by_cases hours : name = .cookie ∨ name = .authorization ∨ name = .portalAuthenticated ∨
      name = .forwardedHost ∨ name = .forwardedPort
  · -- these names are different, so that one step at most counts for each of them
    rcases hours with rfl | rfl | rfl | rfl | rfl <;>
      simp [HeaderName.cookie, HeaderName.authorization, HeaderName.portalAuthenticated,
        HeaderName.forwardedHost, HeaderName.forwardedPort]
  · simp only [not_or, ← ne_eq] at hours
    obtain ⟨hcookie, hauthorization, hmark, hhost, hport⟩ := hours
    simp [hcookie, hauthorization, hmark, hhost, hport, hcookie.symm, hauthorization.symm,
      hmark.symm, hhost.symm, hport.symm]

/-- Of a name that is not copied, only a working header is inherited. -/
theorem inherited_of_not_copied (hname : isCopied name = false) :
    inherited frontend injection name = (injection.workingHeaders.last? name).toList := by
  unfold inherited
  rw [hname]
  cases injection.workingHeaders.last? name with
  | none => rfl
  | some value => rfl

/-- Under a name that the gateway says nothing about, a backend sees what was inherited. -/
theorem headers_inherited (hown : own? frontend injection settings name = none)
    (hfallback : fallback? frontend settings localPort name = none) :
    (headers frontend injection settings localPort).values name =
      inherited frontend injection name := by
  rw [headers_values, hown, hfallback, filled_none]
  rfl

/-- A backend gets no cookies but those of the jar, if the working headers have none. -/
theorem headers_cookies (hworking : ∀ e ∈ injection.workingHeaders.entries, e.1 ≠ .cookie) :
    (headers frontend injection settings localPort).values .cookie =
      (injection.cookieHeader.bind HeaderValue.ofText?).toList := by
  have hnone : injection.workingHeaders.last? .cookie = none :=
    Headers.last?_eq_none.mpr (Headers.values_eq_nil.mpr hworking)
  have hinherited : inherited frontend injection .cookie = [] := by
    rw [inherited_of_not_copied rfl, hnone]
    rfl
  have hown : own? frontend injection settings .cookie =
      injection.cookieHeader.bind HeaderValue.ofText? := rfl
  rw [headers_values, hinherited, hown]
  cases injection.cookieHeader.bind HeaderValue.ofText? with
  | none => rfl
  | some value => rfl

/-- A token takes the place of all that others say about the authorization. -/
theorem headers_authorization :
    (headers frontend injection settings localPort).values .authorization =
      ((token? frontend injection settings).bind HeaderValue.ofBearer?).elim
        (inherited frontend injection .authorization) ([·]) := by
  have hown : own? frontend injection settings .authorization =
      (token? frontend injection settings).bind HeaderValue.ofBearer? := rfl
  have hfallback : fallback? frontend settings localPort .authorization = none := rfl
  rw [headers_values, hown, hfallback, filled_none]

/-- The mark of a known browser takes the place of all that others say under its name. -/
theorem headers_marker :
    (headers frontend injection settings localPort).values .portalAuthenticated =
      if isKnown frontend injection then [⟨Bytes.ofText "true"⟩]
      else inherited frontend injection .portalAuthenticated := by
  have hown : own? frontend injection settings .portalAuthenticated =
      if isKnown frontend injection then some ⟨Bytes.ofText "true"⟩ else none := by
    unfold own?
    rw [if_neg (by decide), if_neg (by decide)]
    simp
  have hfallback : fallback? frontend settings localPort .portalAuthenticated = none := rfl
  rw [headers_values, hown, hfallback, filled_none]
  split <;> rfl

/-- The request to the backend exists if its address does. -/
theorem request_eq_ok {b : BackendSettings} {r out : Request} :
    request b r injection settings localPort = .ok out ↔
      ∃ target, b.target r.target = .ok target ∧
        out = ⟨r.method, target, .http11, headers r.headers injection settings localPort,
          r.body.pumped⟩ := by
  unfold request
  cases b.target r.target with
  | error e =>
    constructor
    · rintro ⟨⟩
    · rintro ⟨target, h, -⟩
      cases h
  | ok target =>
    constructor
    · rintro ⟨⟩
      exact ⟨target, rfl, rfl⟩
    · rintro ⟨_, ⟨⟩, rfl⟩
      rfl

end Outbound
end AccessGateway

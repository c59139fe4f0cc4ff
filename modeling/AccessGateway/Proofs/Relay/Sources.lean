import AccessGateway.Proofs.Relay.Propagation
import AccessGateway.Proofs.Text.Pieces

/-!
# Where the fields of a request to a backend come from

Under every name there are at most four sources: what the gateway says itself, a working header, the
fields of the browser and a fallback.  The first of them that says anything counts, and what the
others say is lost.

## Results

* `Outbound.withoutPort_iff`, `Outbound.addressed_iff` — which host is told, and which part of it.
* `Outbound.headers_eq_firstOf` — the four sources of a name, in their order.
* `backend_fields_by_source` — the sources of each name.
-/

set_option autoImplicit false

namespace AccessGateway

namespace Outbound

open Text

/-! ## Hosts without their ports -/

/-- A host and what is left of it without a port: of a bracketed address all up to its bracket, of a
    name with a colon and digits behind it the name, and of anything else all of it. -/
inductive WithoutPort : List Char → List Char → Prop
  | address (inner rest : List Char) (hinner : ']' ∉ inner) :
      WithoutPort ('[' :: (inner ++ ']' :: rest)) ('[' :: (inner ++ [']']))
  | port (name digits : List Char) (hname : name.head? ≠ some '[')
      (hdigits : ∀ c ∈ digits, c.isDigit = true) : WithoutPort (name ++ ':' :: digits) name
  | all (host : List Char) (haddress : ∀ inner rest, host ≠ '[' :: (inner ++ ']' :: rest))
      (hport : ∀ name digits, name.head? ≠ some '[' → host = name ++ ':' :: digits →
        ∃ c ∈ digits, c.isDigit = false) : WithoutPort host host

theorem exists_cutLast {sep : Char} {cs : List Char} (h : sep ∈ cs) :
    ∃ before after, cs = before ++ sep :: after ∧ sep ∉ after := by
  obtain ⟨after, before, hcs, hafter⟩ := List.eq_append_cons_of_mem (List.mem_reverse.mpr h)
  refine ⟨before.reverse, after.reverse, ?_, by rwa [List.mem_reverse]⟩
  simpa using congrArg List.reverse hcs

theorem head?_append_cons_ne {name : List Char} (h : name.head? ≠ some '[') (digits : List Char) :
    (name ++ ':' :: digits).head? ≠ some '[' := by
  cases name with
  | nil => simp
  | cons c name => simpa using h

theorem stripPort_address {inner : List Char} (hinner : ']' ∉ inner) (rest : List Char) :
    stripPort (String.ofList ('[' :: (inner ++ ']' :: rest))) =
      String.ofList ('[' :: (inner ++ [']'])) := by
  have hcut : cut? ']' ('[' :: (inner ++ ']' :: rest)) = some ('[' :: inner, rest) := by
    rw [← List.cons_append]
    exact cut?_append (by simpa using hinner) rest
  unfold stripPort
  dsimp only
  rw [String.toList_ofList, if_pos List.head?_cons, hcut]
  rfl

theorem stripPort_port {name digits : List Char} (hname : name.head? ≠ some '[')
    (hdigits : ∀ c ∈ digits, c.isDigit = true) :
    stripPort (String.ofList (name ++ ':' :: digits)) = String.ofList name := by
  have hcolon : ':' ∉ digits := fun h => absurd (hdigits _ h) (by decide)
  unfold stripPort
  dsimp only
  rw [String.toList_ofList, if_neg (head?_append_cons_ne hname digits), cutLast?_append hcolon]
  dsimp only
  rw [if_pos (List.all_eq_true.mpr hdigits)]

theorem stripPort_all {host : List Char}
    (haddress : ∀ inner rest, host ≠ '[' :: (inner ++ ']' :: rest))
    (hport : ∀ name digits, name.head? ≠ some '[' → host = name ++ ':' :: digits →
      ∃ c ∈ digits, c.isDigit = false) : stripPort (String.ofList host) = String.ofList host := by
  unfold stripPort
  dsimp only
  rw [String.toList_ofList]
  by_cases hbracket : host.head? = some '['
  · obtain ⟨cs, rfl⟩ := List.head?_eq_some_iff.mp hbracket
    have hnotMem : ']' ∉ '[' :: cs := by
      intro h
      obtain ⟨inner, rest, rfl, -⟩ :=
        List.eq_append_cons_of_mem (List.mem_of_ne_of_mem (by decide) h)
      exact haddress inner rest rfl
    rw [if_pos hbracket, cut?_eq_none hnotMem]
  · rw [if_neg hbracket]
    by_cases hcolon : ':' ∈ host
    · obtain ⟨name, digits, rfl, hlast⟩ := exists_cutLast hcolon
      have hname : name.head? ≠ some '[' := by
        intro h
        obtain ⟨cs, rfl⟩ := List.head?_eq_some_iff.mp h
        exact hbracket rfl
      obtain ⟨c, hc, hdigit⟩ := hport name digits hname rfl
      have hall : ¬digits.all Char.isDigit = true := by
        rw [List.all_eq_true]
        exact fun h => absurd (h c hc) (by rw [hdigit]; decide)
      rw [cutLast?_append hlast]
      dsimp only
      rw [if_neg hall]
    · rw [cutLast?_eq_none hcolon]

/-- Something is left of every host. -/
theorem exists_withoutPort (host : List Char) : ∃ name, WithoutPort host name := by
  by_cases haddress : ∃ inner rest, host = '[' :: (inner ++ ']' :: rest)
  · obtain ⟨inner, rest, rfl⟩ := haddress
    obtain ⟨inner', rest', hfirst, hnotMem⟩ :=
      List.eq_append_cons_of_mem (List.mem_append_right inner (List.mem_cons_self (a := ']')))
    rw [hfirst]
    exact ⟨_, .address inner' rest' hnotMem⟩
  · by_cases hport : ∃ name digits, name.head? ≠ some '[' ∧ host = name ++ ':' :: digits ∧
        ∀ c ∈ digits, c.isDigit = true
    · obtain ⟨name, digits, hname, rfl, hdigits⟩ := hport
      exact ⟨name, .port name digits hname hdigits⟩
    · refine ⟨host, .all host (fun inner rest heq => haddress ⟨inner, rest, heq⟩)
        fun name digits hname heq => ?_⟩
      refine Classical.byContradiction fun hnone =>
        hport ⟨name, digits, hname, heq, fun c hc => ?_⟩
      cases hdigit : c.isDigit with
      | true => rfl
      | false => exact absurd ⟨c, hc, hdigit⟩ hnone

/-- **A host without its port.** -/
theorem withoutPort_iff {host name : String} :
    WithoutPort host.toList name.toList ↔ stripPort host = name := by
  have hstrip : ∀ {cs left}, WithoutPort cs left →
      stripPort (String.ofList cs) = String.ofList left := by
    intro cs left h
    cases h with
    | address inner rest hinner => exact stripPort_address hinner rest
    | port _ digits hname hdigits => exact stripPort_port hname hdigits
    | all _ haddress hport => exact stripPort_all haddress hport
  constructor
  · intro h
    simpa using hstrip h
  · rintro rfl
    obtain ⟨left, hleft⟩ := exists_withoutPort host.toList
    have heq := hstrip hleft
    rw [String.ofList_toList] at heq
    rwa [heq, String.toList_ofList]

variable {frontend : Headers} {injection : Injection} {settings : ProxySettings} {localPort : Nat}
  {name : HeaderName}

/-- The host that the gateway was addressed by: the one that is configured, else the first that the
    browser names in plain text, without its port, else none. -/
inductive Addressed (frontend : Headers) (settings : ProxySettings) : Option String → Prop
  | configured {host : String} (h : settings.forwardedHost = some host) :
      Addressed frontend settings (some host)
  | named {host left : String} (hnone : settings.forwardedHost = none)
      (hfirst : (frontend.first? .host).bind HeaderValue.text? = some host)
      (hleft : WithoutPort host.toList left.toList) : Addressed frontend settings (some left)
  | unnamed (hnone : settings.forwardedHost = none)
      (hfirst : (frontend.first? .host).bind HeaderValue.text? = none) :
      Addressed frontend settings none

theorem addressed_iff {host : Option String} :
    Addressed frontend settings host ↔ forwardedHost? frontend settings = host := by
  unfold forwardedHost?
  constructor
  · rintro (h | ⟨hnone, hfirst, hleft⟩ | ⟨hnone, hfirst⟩)
    · rw [h]
      rfl
    · rw [hnone, hfirst, ← withoutPort_iff.mp hleft]
      rfl
    · rw [hnone, hfirst]
      rfl
  · rintro rfl
    cases hconfigured : settings.forwardedHost with
    | some host => exact .configured hconfigured
    | none =>
      cases hfirst : (frontend.first? .host).bind HeaderValue.text? with
      | some host => exact .named hconfigured hfirst (withoutPort_iff.mpr rfl)
      | none => exact .unnamed hconfigured hfirst

/-! ## Sources -/

/-- The values of the first source that has any. -/
def firstOf (sources : List (List HeaderValue)) : List HeaderValue :=
  (sources.find? fun values => !values.isEmpty).getD []

@[simp] theorem firstOf_nil : firstOf [] = [] := rfl

@[simp] theorem firstOf_cons (values : List HeaderValue) (rest : List (List HeaderValue)) :
    firstOf (values :: rest) = if values = [] then firstOf rest else values := by
  cases values <;> rfl

theorem firstOf_singleton (values : List HeaderValue) : firstOf [values] = values := by
  cases values <;> rfl

/-- A last source that says nothing makes no difference. -/
theorem firstOf_append_nil (sources : List (List HeaderValue)) :
    firstOf (sources ++ [[]]) = firstOf sources := by
  induction sources with
  | nil => rfl
  | cons values rest ih => rw [List.cons_append, firstOf_cons, firstOf_cons, ih]

/-- What the working headers say under a name: of several values, the last. -/
def working (injection : Injection) (name : HeaderName) : List HeaderValue :=
  (injection.workingHeaders.last? name).toList

/-- What goes on of the fields of a browser. -/
def copied (frontend : Headers) (name : HeaderName) : List HeaderValue :=
  if isCopied name then frontend.values name else []

/-- **The sources of a name.** -/
theorem headers_eq_firstOf : (headers frontend injection settings localPort).values name =
    firstOf [(own? frontend injection settings name).toList, working injection name,
      copied frontend name, (fallback? frontend settings localPort name).toList] := by
  have hinherited : inherited frontend injection name =
      firstOf [working injection name, copied frontend name] := by
    unfold inherited working copied
    cases injection.workingHeaders.last? name <;> simp
  rw [headers_values, hinherited]
  cases own? frontend injection settings name with
  | some value => rfl
  | none =>
    unfold filled
    by_cases hworking : working injection name = []
    · by_cases hcopied : copied frontend name = []
      · simp [hworking, hcopied]
      · simp [hworking, hcopied]
    · simp [hworking]

theorem own?_eq_none (hcookie : name ≠ .cookie) (hauthorization : name ≠ .authorization)
    (hmarker : name ≠ .portalAuthenticated) : own? frontend injection settings name = none := by
  unfold own?
  rw [if_neg hcookie, if_neg hauthorization, if_neg fun h => hmarker h.1]

theorem fallback?_eq_none (hhost : name ≠ .forwardedHost) (hport : name ≠ .forwardedPort) :
    fallback? frontend settings localPort name = none := by
  unfold fallback?
  rw [if_neg hhost, if_neg hport]

theorem copied_eq_nil (h : name = .host ∨ name = .cookie ∨ name.isHopByHop = true) :
    copied frontend name = [] := by
  unfold copied
  refine if_neg ?_
  rcases h with h | h | h <;> simp [isCopied, h]

theorem copied_eq_values (hhost : name ≠ .host) (hcookie : name ≠ .cookie)
    (hhop : name.isHopByHop = false) : copied frontend name = frontend.values name := by
  unfold copied
  exact if_pos (by simp [isCopied, hhost, hcookie, hhop])

/-- Where the gateway says nothing itself, a backend sees what others say. -/
theorem headers_others (hown : own? frontend injection settings name = none)
    (hfallback : fallback? frontend settings localPort name = none) :
    (headers frontend injection settings localPort).values name =
      firstOf [working injection name, copied frontend name] := by
  rw [headers_eq_firstOf, hown, hfallback]
  simp

end Outbound

open Outbound

/-- **Where the fields of a request to a backend come from.**  Under each name the first of its
    sources counts that says anything: a token, the cookies of the jar, a working header, the fields
    of the browser, and for the host and the port that the gateway was addressed by what is
    configured or else what it was addressed by.  Only the port is always told. -/
theorem backend_fields_by_source (frontend : Headers) (injection : Injection)
    (settings : ProxySettings) (localPort : Nat) :
    let out := Outbound.headers frontend injection settings localPort
    let token := injection.accessToken <|>
      settings.applicationJwtCookie.bind frontend.requestCookie?
    let port := settings.forwardedPort.getD localPort
    out.values .authorization = firstOf
      [(token.bind fun text => HeaderValue.ofText? ("Bearer " ++ text)).toList,
        working injection .authorization, frontend.values .authorization] ∧
    out.values .cookie = firstOf
      [(injection.cookieHeader.bind HeaderValue.ofText?).toList, working injection .cookie] ∧
    (∀ name, name = .host ∨ name.isHopByHop = true → out.values name = working injection name) ∧
    (∃ host, Addressed frontend settings host ∧ out.values .forwardedHost = firstOf
      [working injection .forwardedHost, frontend.values .forwardedHost,
        (host.bind HeaderValue.ofText?).toList]) ∧
    out.values .forwardedPort = firstOf
      [working injection .forwardedPort, frontend.values .forwardedPort, [.ofNat port]] ∧
    out.values .forwardedPort ≠ [] ∧
    ∀ name, name ∉ [.authorization, .cookie, .host, .forwardedHost, .forwardedPort,
        .portalAuthenticated] → name.isHopByHop = false →
      out.values name = firstOf [working injection name, frontend.values name] := by
  intro out token port
  have hport : out.values .forwardedPort = firstOf [working injection .forwardedPort,
      frontend.values .forwardedPort, [.ofNat port]] :=
    headers_eq_firstOf
  refine ⟨?_, ?_, fun name hname => ?_, ⟨_, addressed_iff.mpr rfl, headers_eq_firstOf⟩, hport, ?_,
    fun name hname hhop => ?_⟩
  · have hsources : out.values .authorization = firstOf
        ([(token.bind fun text => HeaderValue.ofText? ("Bearer " ++ text)).toList,
          working injection .authorization, frontend.values .authorization] ++ [[]]) :=
      headers_eq_firstOf
    rw [hsources, firstOf_append_nil]
  · have hsources : out.values .cookie = firstOf
        ([(injection.cookieHeader.bind HeaderValue.ofText?).toList, working injection .cookie] ++
          [[]] ++ [[]]) :=
      headers_eq_firstOf
    rw [hsources, firstOf_append_nil, firstOf_append_nil]
  · have hne : ∀ other : HeaderName, other ≠ .host → other.isHopByHop = false → name ≠ other := by
      rintro other hhost hhop rfl
      rcases hname with rfl | hname
      · exact hhost rfl
      · rw [hhop] at hname
        cases hname
    have hown : own? frontend injection settings name = none :=
      own?_eq_none (hne _ (by decide) rfl) (hne _ (by decide) rfl) (hne _ (by decide) rfl)
    have hfallback : fallback? frontend settings localPort name = none :=
      fallback?_eq_none (hne _ (by decide) rfl) (hne _ (by decide) rfl)
    rw [headers_others hown hfallback, copied_eq_nil (hname.imp_right .inr)]
    exact (firstOf_append_nil [working injection name]).trans (firstOf_singleton _)
  · rw [hport]
    simp only [firstOf_cons]
    split
    · split
      · simp
      · assumption
    · assumption
  · simp only [List.mem_cons, List.not_mem_nil, or_false, not_or] at hname
    obtain ⟨hauthorization, hcookie, hhost, hforwardedHost, hforwardedPort, hmarker⟩ := hname
    rw [headers_others (own?_eq_none hcookie hauthorization hmarker)
      (fallback?_eq_none hforwardedHost hforwardedPort), copied_eq_values hhost hcookie hhop]

end AccessGateway

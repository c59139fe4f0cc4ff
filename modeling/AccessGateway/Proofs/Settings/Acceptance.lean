import AccessGateway.Proofs.Gateway.OwnBreaker
import AccessGateway.Proofs.Gateway.Posting
import AccessGateway.Proofs.Settings.Faults

/-!
# What acceptance is worth

Validation reads the settings as they are written; the mappings of the gateway are made of them
later, with blanks cut off, letters made small and empty texts put in for what is missing.  What
validation accepts comes through all of this unharmed.

## Results

* `HeaderName.parse?_trimmed` — a name that validation accepts is not lost when blanks are cut off.
* `Settings.headers_kept`, `Settings.oneShot_ready`, `Settings.tokenExchange_ready` — what becomes
  of the parts of an accepted mapping.
* `Settings.breaker_kept` — accepted mappings have breakers of their own.
* `validation_complete` — what validation reports, and what acceptance is worth.
-/

set_option autoImplicit false

namespace AccessGateway

/-! ## The fields that a provider may see -/

namespace HeaderName

/-- Names hold no blanks, so that there are none to be cut off. -/
theorem parse?_trimmed {header : String} (h : parse? header ≠ none) :
    parse? (Text.trimmed header) = some ⟨Text.toLower header⟩ := by
  have htoken : header.toList ≠ [] ∧ header.toList.length ≤ 65535 ∧
      header.toList.all Text.isTokenChar = true := by
    by_contra hbad
    exact h (if_neg hbad)
  have hblank : ∀ c ∈ header.toList, Text.isBlank c = false := fun c hc =>
    Text.isBlank_of_printed (Text.isTokenChar_printed (List.all_eq_true.mp htoken.2.2 c hc))
  have htrimmed : Text.trimmed header = header := by
    rw [Text.trimmed, Text.trim_eq_self, String.ofList_toList]
    · exact fun c hc => hblank c (List.mem_of_mem_head? hc)
    · exact fun c hc => hblank c (List.mem_of_getLast? hc)
  rw [htrimmed]
  exact if_pos htoken

end HeaderName

/-! ## Accepted mappings -/

namespace Settings

variable {settings : Settings} {m : MappingSettings}

/-- No field is lost that a provider may see. -/
theorem headers_kept (h : settings.isValid = true) (hm : m ∈ settings.mappings) :
    (Mapping.ofSettings m).headers.map (·.text) = m.headers.map Text.toLower := by
  have hparse : ∀ header ∈ m.headers,
      HeaderName.parse? (Text.trimmed header) = some ⟨Text.toLower header⟩ := by
    intro header hheader
    apply HeaderName.parse?_trimmed
    intro hnone
    exact Validation.not_atFault h hm _ (.headerInvalid hheader hnone)
  have hheaders : (Mapping.ofSettings m).headers =
      m.headers.map fun header => ⟨Text.toLower header⟩ := by
    show m.headers.filterMap _ = _
    rw [List.filterMap_congr hparse, List.filterMap_eq_map']
  rw [hheaders, List.map_map]
  rfl

/-- The address of the provider. -/
theorem url_ready (h : settings.isValid = true) (hm : m ∈ settings.mappings)
    (hflow : m.flow = .oneShot ∨ m.flow = .tokenExchange) :
    ∃ url target, m.deniedAccessUrl = some url ∧ HttpUrl.parse? url = some target := by
  cases hurl : m.deniedAccessUrl.filter (· ≠ "") with
  | none =>
    refine absurd (.denyTargetMissing (.inr hflow) fun url hsome => ?_)
      (Validation.not_atFault h hm _)
    simpa [hsome] using hurl
  | some url =>
    obtain ⟨hsome, hne⟩ := Option.filter_eq_some_iff.mp hurl
    cases htarget : HttpUrl.parse? url with
    | none =>
      exact absurd (.denyTargetRelative hflow hsome (of_decide_eq_true hne) htarget)
        (Validation.not_atFault h hm _)
    | some target => exact ⟨url, target, hsome, htarget⟩

theorem oneShot_ready (h : settings.isValid = true) (hm : m ∈ settings.mappings)
    (hflow : m.flow = .oneShot) :
    ∃ url target, (Mapping.ofSettings m).flow = .oneShot url ∧
      m.deniedAccessUrl = some url ∧ HttpUrl.parse? url = some target := by
  obtain ⟨url, target, hurl, htarget⟩ := url_ready h hm (.inl hflow)
  refine ⟨url, target, ?_, hurl, htarget⟩
  show Flow.ofSettings m = _
  unfold Flow.ofSettings
  rw [hflow, hurl]
  rfl

/-- The options of a token exchange. -/
theorem option_ready (h : settings.isValid = true) (hm : m ∈ settings.mappings)
    (hflow : m.flow = .tokenExchange) {key : String}
    (hkey : key = MappingSettings.clientId ∨ key = MappingSettings.clientSecret ∨
      key = MappingSettings.subjectIssuer) : (m.option? key).getD "" ≠ "" := by
  intro hempty
  exact Validation.not_atFault h hm _
    (.optionMissing hflow hkey (Validation.getD_eq_empty.mp hempty))

theorem tokenExchange_ready (h : settings.isValid = true) (hm : m ∈ settings.mappings)
    (hflow : m.flow = .tokenExchange) :
    ∃ client target, (Mapping.ofSettings m).flow = .tokenExchange client ∧
      m.deniedAccessUrl = some client.url ∧ HttpUrl.parse? client.url = some target ∧
      client.clientId ≠ "" ∧ client.clientSecret ≠ "" ∧ client.subjectIssuer ≠ "" := by
  obtain ⟨url, target, hurl, htarget⟩ := url_ready h hm (.inr hflow)
  have hclient : m.client.url = url := by
    unfold MappingSettings.client
    rw [hurl]
    rfl
  refine ⟨m.client, target, Mapping.flow_ofSettings hflow, ?_, ?_, ?_, ?_, ?_⟩
  · rw [hclient, hurl]
  · rw [hclient, htarget]
  · exact option_ready h hm hflow (.inl rfl)
  · exact option_ready h hm hflow (.inr (.inl rfl))
  · exact option_ready h hm hflow (.inr (.inr rfl))

/-! ## Breakers of accepted mappings -/

/-- The names of accepted mappings. -/
theorem name_ne_empty (h : settings.isValid = true) (hm : m ∈ settings.mappings) :
    m.name ≠ "" := fun hname => Validation.not_atFault h hm _ (.nameMissing hname)

/-- What other mappings do leaves the breaker of an accepted mapping as it is. -/
theorem breaker_kept (h : settings.isValid = true) (hm : m ∈ settings.mappings) {s : Server}
    (htable : s.gateway.table = .ofSettings settings.mappings) {events : List ServerEvent}
    (hothers : ∀ e ∈ events, ¬e.IsRuledBy s.gateway.table (.ofSettings m)) :
    (s.run events).gateway.breakers.find? m.name = s.gateway.breakers.find? m.name := by
  apply Server.run_find?
  intro e he m' hm' hruled hname
  rw [htable] at hm'
  obtain ⟨other, hother, rfl⟩ := List.mem_map.mp hm'
  have hsame : other = m := List.inj_on_of_nodup_map (Validation.nodup_names h) hother hm hname
  exact hothers e he (hsame ▸ hruled)

end Settings

/-- What accepted settings are worth to the gateway that runs with them. -/
structure Settings.Protects (settings : Settings) : Prop where
  /-- Mappings have names, and no two have the same. -/
  named : ∀ m ∈ settings.mappings, m.name ≠ ""
  distinct : (settings.mappings.map (·.name)).Nodup
  /-- The requests that a mapping rules go by no breaker but the one of its name: whatever state the
      gateway is in, they are served as if there were no other. -/
  ownBreaker : ∀ m ∈ settings.mappings, ∀ (g : Gateway) (w : Surroundings) (r : Request)
    (own : Breakers), g.table.resolve r.target.path = .ofSettings m →
    Breakers.Reduces m.name g.breakers own →
    ∃ own', { g with breakers := own }.dispatch w r =
        { g.dispatch w r with gateway := { (g.dispatch w r).gateway with breakers := own' } } ∧
      Breakers.Reduces m.name (g.dispatch w r).gateway.breakers own'
  /-- Nobody else goes by it: after any run of a server, the breaker of a mapping stays as it is for
      as long as there are only requests that this mapping does not rule. -/
  otherBreakers : ∀ m ∈ settings.mappings, ∀ (router : Router) (localPort : Nat)
    (before after : List ServerEvent),
    (∀ e ∈ after, ¬e.IsRuledBy (.ofSettings settings.mappings) (.ofSettings m)) →
    let start := Server.new router settings localPort
    (start.run (before ++ after)).gateway.breakers.find? m.name =
      (start.run before).gateway.breakers.find? m.name
  /-- All fields that a provider may see are kept, in order and in small letters. -/
  headers : ∀ m ∈ settings.mappings,
    (Mapping.ofSettings m).headers.map (·.text) = m.headers.map Text.toLower
  oneShot : ∀ m ∈ settings.mappings, m.flow = .oneShot →
    ∃ url target, (Mapping.ofSettings m).flow = .oneShot url ∧
      m.deniedAccessUrl = some url ∧ HttpUrl.parse? url = some target
  tokenExchange : ∀ m ∈ settings.mappings, m.flow = .tokenExchange →
    ∃ client target, (Mapping.ofSettings m).flow = .tokenExchange client ∧
      m.deniedAccessUrl = some client.url ∧ HttpUrl.parse? client.url = some target ∧
      client.clientId ≠ "" ∧ client.clientSecret ≠ "" ∧ client.subjectIssuer ≠ ""

/-- **Validation reports all that is wrong, and acceptance protects the gateway.**  The faults of
    settings are those of the gateway as a whole and then, mapping by mapping, those that a mapping
    has on its own, after the one that its name was there before, if it was, in these words.  A
    mapping in the place of a namesake leaves all others their faults.  A fault is reported exactly
    if it is there, whatever else is wrong.  And settings without faults protect the gateway that
    runs with them. -/
theorem validation_protects (settings : Settings) :
    Validation.faults settings =
      Validation.globalFaults settings ++
        (List.range settings.mappings.length).flatMap (Validation.faultsAt settings.mappings) ∧
    (∀ scope, (SettingsFault.mapping scope .nameTaken).message = "duplicate mapping name") ∧
    (∀ (i : Nat) (m : MappingSettings), (settings.mappings[i]?).map (·.name) = some m.name →
      let replaced := { settings with mappings := settings.mappings.set i m }
      Validation.globalFaults replaced = Validation.globalFaults settings ∧
      ∀ j, j ≠ i → Validation.faultsAt replaced.mappings j =
        Validation.faultsAt settings.mappings j) ∧
    (∀ fault, fault ∈ Validation.faults settings ↔ settings.AtFault fault) ∧
    (settings.isValid = true → settings.Protects) := by
  refine ⟨Validation.faults_eq settings, fun _ => rfl, ?_, fun _ => Validation.mem_faults, ?_⟩
  · intro i m hname
    exact ⟨rfl, fun j hne => Validation.faultsAt_set hname hne⟩
  · intro h
    refine
      { named := fun m hm => Settings.name_ne_empty h hm
        distinct := Validation.nodup_names h
        ownBreaker := ?_
        otherBreakers := ?_
        headers := fun m hm => Settings.headers_kept h hm
        oneShot := fun m hm hflow => Settings.oneShot_ready h hm hflow
        tokenExchange := fun m hm hflow => Settings.tokenExchange_ready h hm hflow }
    · intro m hm g w r own hruled hown
      have hname : (g.table.resolve r.target.path).name = m.name := by
        rw [hruled]
        rfl
      rw [← hname] at hown ⊢
      exact Gateway.dispatch_reduces hown
    · intro m hm router localPort before after hothers
      dsimp only
      have htable : ((Server.new router settings localPort).run before).gateway.table =
          .ofSettings settings.mappings := Server.run_table _ before
      rw [Server.run_append]
      exact Settings.breaker_kept h hm htable (htable ▸ hothers)

/-! ## A site -/

/-- A shop that asks a provider for each order, and a portal that wants tokens. -/
def SampleSite.settings : Settings :=
  { mappings := [
      { name := "shop", contextRoot := "/shop", flow := .oneShot
        deniedAccessUrl := some "https://idp.local/order", headers := ["Accept-Language", "DNT"]
        backend := { host := "shop" } },
      { name := "portal", contextRoot := "/", flow := .tokenExchange
        deniedAccessUrl := some "http://idp.local/token", backend := { host := "portal" }
        options := [(MappingSettings.clientId, "gateway"), (MappingSettings.clientSecret, " "),
          (MappingSettings.subjectIssuer, "idp")] }] }

theorem validation_protects_site :
    SampleSite.settings.isValid = true ∧ SampleSite.settings.Protects := by
  have hvalid : SampleSite.settings.isValid = true := by decide +kernel
  exact ⟨hvalid, (validation_protects SampleSite.settings).2.2.2.2 hvalid⟩

/-- A mapping with much that is wrong, and two that have the same name. -/
example :
    let worst : MappingSettings :=
      { contextRoot := "app", flow := .oneShot, deniedAccessUrl := some "/login"
        headers := ["Accept ", "Accept"], backend := { protocol := "https", host := "backend" } }
    let twin : MappingSettings :=
      { name := "twin", contextRoot := "/", flow := .code403, backend := { host := "backend" } }
    (Validation.faults { mappings := [worst, twin, twin] }).map (·.text) =
      ["mappings[0]: name is required",
        "mappings[0].context_root: must start with '/'",
        "mappings[0].backend.protocol: " ++
          "'https' is not supported, backends are reached over plain http",
        "mappings[0].denied_access_url: must be an absolute http(s) URL of the identity provider",
        "mappings[0].headers: 'Accept ' is not a valid header name",
        "mappings.twin: duplicate mapping name"] := by
  decide +kernel

end AccessGateway

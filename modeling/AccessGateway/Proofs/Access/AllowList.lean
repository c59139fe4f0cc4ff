import AccessGateway.Proofs.Access.OneShot
import AccessGateway.Proofs.Settings.Acceptance
import Mathlib.Data.List.Count

/-!
# Fields that a provider may see

A mapping lists the fields of a browser's request that go along when a provider is asked for a
one-shot grant.  What goes along is gathered name by name from the list, so that a name that is
listed again, in whatever spelling, brings its values again.

## Results

* `OneShot.values_forwardedHeaders` — the values of a name, as often as it is listed.
* `OneShot.forwarded_exact_iff` — when a list is as good as the set of its names.
* `allow_list_exact_iff` — the fields that go along for an accepted mapping.
* `allow_list_repeats` — an accepted mapping that sends values twice.
-/

set_option autoImplicit false

namespace AccessGateway

namespace OneShot

variable {names : List HeaderName} {request : Headers} {name : HeaderName}

/-- What goes along for a list is what goes along for its first name and for the others. -/
theorem forwardedHeaders_cons (first : HeaderName) (names : List HeaderName) (request : Headers) :
    forwardedHeaders (first :: names) request =
      Headers.appendAll ⟨(request.values first).map (first, ·)⟩ (forwardedHeaders names request) :=
  rfl

/-- **The values of a name that go along**: all of them, as often as the name is listed. -/
theorem values_forwardedHeaders (names : List HeaderName) (request : Headers) (name : HeaderName) :
    (forwardedHeaders names request).values name =
      (List.replicate (names.count name) (request.values name)).flatten := by
  induction names with
  | nil => rfl
  | cons first names ih =>
    rw [forwardedHeaders_cons, Headers.values_appendAll, ih]
    by_cases h : first = name
    · subst h
      rw [Headers.values_map, List.count_cons_self, List.replicate_succ, List.flatten_cons]
    · have hnone : Headers.values ⟨(request.values first).map (first, ·)⟩ name = [] := by
        simp [Headers.values, List.filter_map, Function.comp_def, h]
      rw [hnone, List.nil_append, List.count_cons_of_ne h]

/-- What goes along of a name is what the request has of it, if the name is listed, and else
    nothing. -/
def SendsExactly (names : List HeaderName) (request : Headers) (name : HeaderName) : Prop :=
  (forwardedHeaders names request).values name =
    if name ∈ names then request.values name else []

/-- **A name is sent exactly if it is listed once at most**, or if there is nothing to send. -/
theorem sendsExactly_iff :
    SendsExactly names request name ↔ names.count name ≤ 1 ∨ request.values name = [] := by
  unfold SendsExactly
  rw [values_forwardedHeaders]
  by_cases hlisted : name ∈ names
  · rw [if_pos hlisted]
    have hpos : 0 < names.count name := List.count_pos_iff.mpr hlisted
    constructor
    · intro hsame
      have hlength := congrArg List.length hsame
      rw [List.length_flatten, List.map_replicate, List.sum_replicate_nat] at hlength
      rcases Nat.eq_zero_or_pos (request.values name).length with hnone | hsome
      · exact .inr (List.length_eq_zero_iff.mp hnone)
      · have hone : names.count name = 1 := Nat.eq_of_mul_eq_mul_right hsome (by omega)
        exact .inl hone.le
    · rintro (honce | hnone)
      · have hone : names.count name = 1 := by omega
        simp [hone]
      · simp [hnone]
  · have hzero : names.count name = 0 := List.count_eq_zero.mpr hlisted
    simp [hlisted, hzero]

/-- **When a list is as good as the set of its names.** -/
theorem forall_sendsExactly_iff :
    (∀ request name, SendsExactly names request name) ↔ names.Nodup := by
  rw [List.nodup_iff_count_le_one]
  constructor
  · intro hall name
    -- A request with one value of the name shows how often it is listed.
    have hone := sendsExactly_iff.mp (hall ⟨[(name, ⟨[]⟩)]⟩ name)
    refine hone.resolve_right ?_
    simp [Headers.values]
  · intro hcount request name
    exact sendsExactly_iff.mpr (.inl (hcount name))

end OneShot

/-! ## Accepted mappings -/

theorem HeaderName.text_injective : Function.Injective HeaderName.text := by
  rintro ⟨text⟩ ⟨other⟩ rfl
  rfl

/-- How often settings list a name, in whatever spelling. -/
def MappingSettings.listings (m : MappingSettings) (name : HeaderName) : Nat :=
  (m.headers.map Text.toLower).count name.text

namespace Settings

variable {settings : Settings} {m : MappingSettings}

theorem count_headers (h : settings.isValid = true) (hm : m ∈ settings.mappings)
    (name : HeaderName) : (Mapping.ofSettings m).headers.count name = m.listings name := by
  unfold MappingSettings.listings
  rw [← headers_kept h hm, List.count_map_of_injective _ _ HeaderName.text_injective]

theorem mem_headers (h : settings.isValid = true) (hm : m ∈ settings.mappings)
    (name : HeaderName) :
    name ∈ (Mapping.ofSettings m).headers ↔ name.text ∈ m.headers.map Text.toLower := by
  rw [← headers_kept h hm, List.mem_map_of_injective HeaderName.text_injective]

theorem nodup_headers (h : settings.isValid = true) (hm : m ∈ settings.mappings) :
    (Mapping.ofSettings m).headers.Nodup ↔ (m.headers.map Text.toLower).Nodup := by
  rw [← headers_kept h hm, List.nodup_map_iff HeaderName.text_injective]

end Settings

/-- **When the listed fields go along as they are.**  The provider of an accepted one-shot mapping
    is sent the values of a name as often as the mapping lists it, in whatever spelling.  What it is
    sent of a name is what the request has of it if the name is listed, and else nothing, exactly if
    the name is listed once at most or the request has nothing of it.  So all requests are sent on
    in this way exactly if no two names of the list are one in small letters.  And this is what the
    provider is asked with, once for each request that roles do not open the mapping to. -/
theorem allow_list_exact_iff (settings : Settings) (m : MappingSettings)
    (hvalid : settings.isValid = true) (hm : m ∈ settings.mappings) (hflow : m.flow = .oneShot) :
    let sent (request : Headers) : Headers :=
      OneShot.forwardedHeaders (Mapping.ofSettings m).headers request
    let exactly (request : Headers) (name : HeaderName) : Prop :=
      (sent request).values name =
        if name.text ∈ m.headers.map Text.toLower then request.values name else []
    (∀ request name, (sent request).values name =
      (List.replicate (m.listings name) (request.values name)).flatten) ∧
    (∀ request name, exactly request name ↔
      m.listings name ≤ 1 ∨ request.values name = []) ∧
    ((∀ request name, exactly request name) ↔ (m.headers.map Text.toLower).Nodup) ∧
    ∃ url, m.deniedAccessUrl = some url ∧
      ∀ (peers : IdentityPeers) (r : AccessRequest) (s : Session) (st : RequestState),
        ((Mapping.ofSettings m).authorize peers r s st).calls =
          if ((Mapping.ofSettings m).checkRoles s r.now).2 then []
          else [.oneShot url m.name (sent r.headers)] := by
  intro sent exactly
  have hexactly : ∀ request name, exactly request name ↔
      OneShot.SendsExactly (Mapping.ofSettings m).headers request name := by
    intro request name
    unfold OneShot.SendsExactly
    rw [if_congr (Settings.mem_headers hvalid hm name) rfl rfl]
  refine ⟨fun request name => ?_, fun request name => ?_, ?_, ?_⟩
  · rw [← Settings.count_headers hvalid hm name]
    exact OneShot.values_forwardedHeaders _ request name
  · rw [hexactly, OneShot.sendsExactly_iff, Settings.count_headers hvalid hm name]
  · simp only [hexactly]
    rw [OneShot.forall_sendsExactly_iff, Settings.nodup_headers hvalid hm]
  · obtain ⟨url, -, hready, hurl, -⟩ := Settings.oneShot_ready hvalid hm hflow
    refine ⟨url, hurl, fun peers r s st => ?_⟩
    have hasked : (Mapping.ofSettings m).authorize peers r s st =
        OneShot.authorize (Mapping.ofSettings m) url peers r s st := by
      unfold Mapping.authorize
      rw [hready]
    rw [hasked]
    exact OneShot.authorize_calls

/-! ## Lists of two names -/

/-- A site that asks a provider for each order, with a list of the fields that it may see. -/
def OrderSite.settings (headers : List String) : Settings :=
  { mappings := [
      { name := "order", contextRoot := "/order", flow := .oneShot
        deniedAccessUrl := some "http://idp.local/order", headers
        backend := { host := "shop" } }] }

/-- A request with two values of one field. -/
def OrderSite.request : Headers :=
  ⟨[(⟨"x-client"⟩, ⟨Bytes.ofText "a"⟩), (⟨"x-client"⟩, ⟨Bytes.ofText "b"⟩)]⟩

/-- Both values of a listed name go along, once each, whatever its spelling. -/
theorem allow_list_exact_iff_order :
    let settings := OrderSite.settings ["X-Client", "DNT"]
    settings.isValid = true ∧ ∃ m ∈ settings.mappings, m.flow = .oneShot ∧
      (OneShot.forwardedHeaders (Mapping.ofSettings m).headers OrderSite.request).values
        ⟨"x-client"⟩ = [⟨Bytes.ofText "a"⟩, ⟨Bytes.ofText "b"⟩] := by
  intro settings
  have hvalid : settings.isValid = true := by decide +kernel
  refine ⟨hvalid, _, List.mem_singleton_self _, rfl, ?_⟩
  obtain ⟨-, -, hall, -⟩ :=
    allow_list_exact_iff settings _ hvalid (List.mem_singleton_self _) rfl
  have hnodup : (["X-Client", "DNT"].map Text.toLower).Nodup := by decide
  refine (hall.mpr hnodup OrderSite.request ⟨"x-client"⟩).trans ?_
  rw [if_pos (by decide)]
  decide

/-- A list that has one name in two spellings is accepted, and the values go along twice. -/
theorem allow_list_repeats :
    let settings := OrderSite.settings ["X-Client", "x-client"]
    settings.isValid = true ∧ ∃ m ∈ settings.mappings, m.flow = .oneShot ∧
      (OneShot.forwardedHeaders (Mapping.ofSettings m).headers OrderSite.request).values
        ⟨"x-client"⟩ = [⟨Bytes.ofText "a"⟩, ⟨Bytes.ofText "b"⟩, ⟨Bytes.ofText "a"⟩,
          ⟨Bytes.ofText "b"⟩] ∧
      OrderSite.request.values ⟨"x-client"⟩ = [⟨Bytes.ofText "a"⟩, ⟨Bytes.ofText "b"⟩] := by
  exact ⟨by decide +kernel, _, List.mem_singleton_self _, rfl, by decide +kernel, by decide⟩

end AccessGateway

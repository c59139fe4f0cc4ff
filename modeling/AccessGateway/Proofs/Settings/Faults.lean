import AccessGateway.Settings.Validation
import Mathlib.Data.List.Basic

/-!
# The faults of settings

Validation goes through the mappings with one thing in mind, the names that it has seen.  A mapping
therefore has the faults that it has on its own, and one more if its name was there before; the
other mappings play no further part.  And no check looks at what another has found: whatever is
wrong is reported, with all else that is.

## Results

* `Validation.faults_eq` — the faults of the settings, mapping by mapping.
* `Validation.faultsAt_set` — a mapping in the place of a namesake leaves the others their faults.
* `Settings.AtFault`, `Validation.mem_faults` — what can be wrong, and that all of it is reported.
* `Validation.isValid_iff` — accepted settings have nothing wrong with them.
-/

set_option autoImplicit false

namespace AccessGateway

/-! ## What can be wrong -/

/-- What is wrong with a mapping, whatever the other mappings are. -/
inductive MappingSettings.AtFault (m : MappingSettings) : MappingFault → Prop where
  | nameMissing : m.name = "" → AtFault m .nameMissing
  | contextRootRelative : m.contextRoot.toList.head? ≠ some '/' → AtFault m .contextRootRelative
  | hostMissing : m.backend.host = "" → AtFault m .hostMissing
  | portZero : m.backend.port = 0 → AtFault m .portZero
  | protocolUnknown : Text.toLower m.backend.protocol ≠ "http" →
      AtFault m (.protocolUnknown m.backend.protocol)
  | denyTargetMissing : m.flow = .redirect ∨ m.flow = .oneShot ∨ m.flow = .tokenExchange →
      (∀ url, m.deniedAccessUrl = some url → url = "") → AtFault m (.denyTargetMissing m.flow)
  | denyTargetRelative {url : String} : m.flow = .oneShot ∨ m.flow = .tokenExchange →
      m.deniedAccessUrl = some url → url ≠ "" → HttpUrl.parse? url = none →
      AtFault m .denyTargetRelative
  | optionMissing {key : String} : m.flow = .tokenExchange →
      key = MappingSettings.clientId ∨ key = MappingSettings.clientSecret ∨
        key = MappingSettings.subjectIssuer →
      (∀ value, m.option? key = some value → value = "") → AtFault m (.optionMissing key)
  | headerInvalid {header : String} : header ∈ m.headers → HeaderName.parse? header = none →
      AtFault m (.headerInvalid header)

/-- What is wrong with settings. -/
inductive Settings.AtFault (s : Settings) : SettingsFault → Prop where
  | bindAddress : SocketAddress.parse? s.listener.bindAddress = none →
      AtFault s (.bindAddress s.listener.bindAddress)
  | cookieName : s.session.cookieName = "" → AtFault s .cookieName
  | sessionTimeouts : s.session.idleTimeoutSecs = 0 ∨ s.session.maxLifetimeSecs = 0 →
      AtFault s .sessionTimeouts
  | sweepInterval : s.session.sweepIntervalSecs = 0 → AtFault s .sweepInterval
  | circuit : s.circuit.maxFailures = 0 ∨ s.circuit.timeoutSecs = 0 ∨
      s.circuit.resetTimeoutSecs = 0 → AtFault s .circuit
  | postBindingPath {path : String} : s.saml.postBindingPath = some path →
      path.toList.head? ≠ some '/' ∨ path.utf8ByteSize < 2 → AtFault s .postBindingPath
  | mapping {i : Nat} {m : MappingSettings} {fault : MappingFault} :
      s.mappings[i]? = some m → m.AtFault fault →
      AtFault s (.mapping (Validation.scope i m) fault)
  | nameTaken {i j : Nat} {m m' : MappingSettings} :
      s.mappings[i]? = some m → m.name ≠ "" → j < i → s.mappings[j]? = some m' →
      m'.name = m.name → AtFault s (.mapping (Validation.scope i m) .nameTaken)

namespace Validation

/-! ## Mapping by mapping -/

/-- The faults that validation finds in a mapping with a given position if there is no other. -/
def alone (i : Nat) (m : MappingSettings) : List SettingsFault := mappingFaults i [] [m]

/-- The fault of a mapping whose name was there before. -/
def repeated (before : List String) (i : Nat) (m : MappingSettings) : List SettingsFault :=
  if m.name ≠ "" ∧ m.name ∈ before then [.mapping (scope i m) .nameTaken] else []

/-- The faults that are reported for the mapping at a position. -/
def faultsAt (ms : List MappingSettings) (i : Nat) : List SettingsFault :=
  match ms[i]? with
  | some m => repeated ((ms.take i).map (·.name)) i m ++ alone i m
  | none => []

variable {ms : List MappingSettings} {m : MappingSettings}

theorem mappingFaults_cons (i : Nat) (seen : List String) (m : MappingSettings)
    (rest : List MappingSettings) :
    mappingFaults i seen (m :: rest) =
      repeated seen i m ++ alone i m ++ mappingFaults (i + 1) (m.name :: seen) rest := by
  rw [mappingFaults, alone, mappingFaults, mappingFaults, List.append_nil]
  congr 1
  unfold repeated nameFaults
  by_cases hname : m.name = ""
  · simp [hname]
  · by_cases hseen : m.name ∈ seen
    · simp [hname, hseen, faultIf]
    · simp [hname, hseen, faultIf]

/-- The names that were seen are those of the mappings before, in whatever order. -/
theorem mappingFaults_eq (before ms : List MappingSettings) {seen : List String}
    (hseen : ∀ name, name ∈ seen ↔ name ∈ before.map (·.name)) :
    mappingFaults before.length seen ms =
      (List.range' before.length ms.length).flatMap (faultsAt (before ++ ms)) := by
  induction ms generalizing before seen with
  | nil => rfl
  | cons m ms ih =>
    have hfirst : faultsAt (before ++ m :: ms) before.length =
        repeated seen before.length m ++ alone before.length m := by
      unfold faultsAt repeated
      rw [List.getElem?_append_right (Nat.le_refl _), Nat.sub_self, List.take_left]
      simp only [List.getElem?_cons_zero, hseen]
    have hrest := @ih (before ++ [m]) (m.name :: seen) (by simp [hseen, or_comm])
    rw [List.length_append, List.append_assoc] at hrest
    rw [mappingFaults_cons, List.length_cons, List.range'_succ, List.flatMap_cons, hfirst]
    exact congrArg _ hrest

/-- The faults of the settings are those of the gateway as a whole, and then those that are reported
    for the mappings, one after the other. -/
theorem faults_eq (s : Settings) :
    faults s =
      globalFaults s ++ (List.range s.mappings.length).flatMap (faultsAt s.mappings) := by
  have h := @mappingFaults_eq [] s.mappings [] fun _ => Iff.rfl
  rw [faults, List.range_eq_range']
  exact congrArg _ h

/-- A mapping in the place of a namesake. -/
theorem faultsAt_set {i j : Nat} {m' : MappingSettings}
    (hname : (ms[i]?).map (·.name) = some m'.name) (hne : j ≠ i) :
    faultsAt (ms.set i m') j = faultsAt ms j := by
  have hnames : (ms.set i m').map (·.name) = ms.map (·.name) := by
    rw [← List.getElem?_map, List.getElem?_eq_some_iff] at hname
    obtain ⟨hi, hget⟩ := hname
    rw [List.map_set, ← hget, List.set_getElem_self]
  unfold faultsAt
  rw [List.getElem?_set_ne (Ne.symm hne), List.map_take, List.map_take, hnames]

/-! ## All that is wrong is reported -/

theorem mem_faultIf {α : Type} {condition : Bool} {fault x : α} :
    x ∈ faultIf condition fault ↔ condition = true ∧ x = fault := by
  unfold faultIf
  split
  · rename_i h
    simp [h]
  · rename_i h
    simp [h]

theorem eqIgnoreCase_http (protocol : String) :
    Text.eqIgnoreCase protocol "http" = true ↔ Text.toLower protocol = "http" := by
  unfold Text.eqIgnoreCase Text.toLower
  rw [beq_iff_eq]
  constructor
  · intro h
    rw [h]
    decide
  · intro h
    have hlist := congrArg String.toList h
    rw [String.toList_ofList] at hlist
    exact hlist.trans (by decide)

/-- A text that is missing or empty. -/
theorem getD_eq_empty {text : Option String} :
    text.getD "" = "" ↔ ∀ t, text = some t → t = "" := by
  cases text <;> simp

theorem needsDenyTarget_iff {flow : FlowKind} :
    flow.needsDenyTarget = true ↔
      flow = .redirect ∨ flow = .oneShot ∨ flow = .tokenExchange := by
  cases flow <;> simp [FlowKind.needsDenyTarget]

theorem mem_denyTargetFaults {fault : MappingFault} :
    fault ∈ denyTargetFaults m ↔
      m.flow.needsDenyTarget = true ∧
      ((∀ url, m.deniedAccessUrl = some url → url = "") ∧ fault = .denyTargetMissing m.flow ∨
        ∃ url, m.deniedAccessUrl = some url ∧ url ≠ "" ∧ m.flow ≠ .redirect ∧
          HttpUrl.parse? url = none ∧ fault = .denyTargetRelative) := by
  unfold denyTargetFaults
  by_cases hneeds : m.flow.needsDenyTarget = true
  · rw [if_pos hneeds]
    cases hurl : m.deniedAccessUrl with
    | none => simp [hneeds]
    | some url =>
      rw [Option.filter_some]
      by_cases hempty : url = ""
      · simp [hneeds, hempty]
      · simp [hneeds, hempty, mem_faultIf, and_assoc]
  · simp [hneeds]

theorem mem_optionFaults {fault : MappingFault} :
    fault ∈ optionFaults m ↔
      m.flow = .tokenExchange ∧ ∃ key, (key = MappingSettings.clientId ∨
        key = MappingSettings.clientSecret ∨ key = MappingSettings.subjectIssuer) ∧
        (∀ value, m.option? key = some value → value = "") ∧ fault = .optionMissing key := by
  have hkeys : ∀ key, key ∈ requiredOptions.filter (fun key => (m.option? key).getD "" = "") ↔
      (key = MappingSettings.clientId ∨ key = MappingSettings.clientSecret ∨
        key = MappingSettings.subjectIssuer) ∧
        ∀ value, m.option? key = some value → value = "" := by
    intro key
    rw [List.mem_filter, decide_eq_true_eq, getD_eq_empty, requiredOptions, List.mem_cons,
      List.mem_cons, List.mem_singleton]
  unfold optionFaults
  split
  · rename_i hflow
    rw [List.mem_map]
    constructor
    · rintro ⟨key, hkey, rfl⟩
      obtain ⟨hname, hempty⟩ := (hkeys key).mp hkey
      exact ⟨hflow, key, hname, hempty, rfl⟩
    · rintro ⟨-, key, hname, hempty, rfl⟩
      exact ⟨key, (hkeys key).mpr ⟨hname, hempty⟩, rfl⟩
  · rename_i hflow
    simp [hflow]

theorem mem_ownFaults {fault : MappingFault} :
    fault ∈ ownFaults m ↔ m.AtFault fault ∧ fault ≠ .nameMissing := by
  unfold ownFaults
  simp only [List.mem_append, mem_faultIf, decide_eq_true_eq, Bool.not_eq_true', List.mem_map,
    List.mem_filter, Option.isNone_iff_eq_none, mem_optionFaults, mem_denyTargetFaults,
    ← Bool.not_eq_true, eqIgnoreCase_http]
  constructor
  · rintro ((((((⟨h, rfl⟩ | ⟨h, rfl⟩) | ⟨h, rfl⟩) | ⟨h, rfl⟩) | h) | h) | ⟨header, ⟨hmem, h⟩, rfl⟩)
    · exact ⟨.contextRootRelative h, nofun⟩
    · exact ⟨.hostMissing h, nofun⟩
    · exact ⟨.portZero h, nofun⟩
    · exact ⟨.protocolUnknown h, nofun⟩
    · obtain ⟨hneeds, ⟨hempty, rfl⟩ | ⟨url, hurl, hne, hflow, h, rfl⟩⟩ := h
      · exact ⟨.denyTargetMissing (needsDenyTarget_iff.mp hneeds) hempty, nofun⟩
      · exact ⟨.denyTargetRelative ((needsDenyTarget_iff.mp hneeds).resolve_left hflow) hurl hne h,
          nofun⟩
    · obtain ⟨hflow, key, hkey, hempty, rfl⟩ := h
      exact ⟨.optionMissing hflow hkey hempty, nofun⟩
    · exact ⟨.headerInvalid hmem h, nofun⟩
  · rintro ⟨h, hne⟩
    cases h with
    | nameMissing _ => exact absurd rfl hne
    | contextRootRelative h => simp [h]
    | hostMissing h => simp [h]
    | portZero h => simp [h]
    | protocolUnknown h => simp [h]
    | denyTargetMissing hflow h =>
      exact .inl (.inl (.inr ⟨needsDenyTarget_iff.mpr hflow, .inl ⟨h, rfl⟩⟩))
    | denyTargetRelative hflow hurl hfull h =>
      have hneeds := needsDenyTarget_iff.mpr (.inr hflow)
      have hredirect : m.flow ≠ .redirect := by
        intro heq
        simp [heq] at hflow
      exact .inl (.inl (.inr ⟨hneeds, .inr ⟨_, hurl, hfull, hredirect, h, rfl⟩⟩))
    | optionMissing hflow hkey h => exact .inl (.inr ⟨hflow, _, hkey, h, rfl⟩)
    | headerInvalid hmem h => exact .inr ⟨_, ⟨hmem, h⟩, rfl⟩

theorem alone_eq (i : Nat) (m : MappingSettings) :
    alone i m =
      ((if m.name = "" then [MappingFault.nameMissing] else []) ++ ownFaults m).map
        (.mapping (scope i m)) := by
  rw [alone, mappingFaults, mappingFaults, List.append_nil]
  rfl

theorem mem_alone {i : Nat} {fault : SettingsFault} :
    fault ∈ alone i m ↔ ∃ f, m.AtFault f ∧ fault = .mapping (scope i m) f := by
  rw [alone_eq, List.mem_map]
  constructor
  · rintro ⟨f, hf, rfl⟩
    rcases List.mem_append.mp hf with hname | hown
    · split at hname
      · rename_i hempty
        obtain rfl := List.mem_singleton.mp hname
        exact ⟨_, .nameMissing hempty, rfl⟩
      · cases hname
    · exact ⟨f, (mem_ownFaults.mp hown).1, rfl⟩
  · rintro ⟨f, hf, rfl⟩
    refine ⟨f, List.mem_append.mpr ?_, rfl⟩
    by_cases hname : f = .nameMissing
    · subst hname
      cases hf with
      | nameMissing h => exact .inl (by simp [h])
    · exact .inr (mem_ownFaults.mpr ⟨hf, hname⟩)

theorem mem_repeated {before : List String} {i : Nat} {fault : SettingsFault} :
    fault ∈ repeated before i m ↔
      m.name ≠ "" ∧ m.name ∈ before ∧ fault = .mapping (scope i m) .nameTaken := by
  unfold repeated
  split
  · rename_i h
    simp [h]
  · rename_i h
    simp [← and_assoc, h]

/-- The names before a position. -/
theorem mem_names_take {i : Nat} {name : String} :
    name ∈ (ms.take i).map (·.name) ↔ ∃ j m', j < i ∧ ms[j]? = some m' ∧ m'.name = name := by
  rw [List.mem_map]
  constructor
  · rintro ⟨m', hmem, hname⟩
    obtain ⟨j, hj⟩ := List.mem_iff_getElem?.mp hmem
    rw [List.getElem?_take] at hj
    split at hj
    · rename_i hlt
      exact ⟨j, m', hlt, hj, hname⟩
    · cases hj
  · rintro ⟨j, m', hlt, hj, hname⟩
    refine ⟨m', List.mem_iff_getElem?.mpr ⟨j, ?_⟩, hname⟩
    rw [List.getElem?_take, if_pos hlt, hj]

theorem mem_faultsAt {i : Nat} {fault : SettingsFault} (hm : ms[i]? = some m) :
    fault ∈ faultsAt ms i ↔
      (m.name ≠ "" ∧ (∃ j m', j < i ∧ ms[j]? = some m' ∧ m'.name = m.name) ∧
        fault = .mapping (scope i m) .nameTaken) ∨
      ∃ f, m.AtFault f ∧ fault = .mapping (scope i m) f := by
  unfold faultsAt
  rw [hm]
  dsimp only
  rw [List.mem_append, mem_repeated, mem_names_take, mem_alone]

theorem mem_globalFaults {s : Settings} {fault : SettingsFault} :
    fault ∈ globalFaults s ↔ s.AtFault fault ∧ ∀ scope f, fault ≠ .mapping scope f := by
  unfold globalFaults
  simp only [List.mem_append, mem_faultIf, decide_eq_true_eq, Option.isNone_iff_eq_none,
    Bool.or_eq_true, or_assoc]
  constructor
  · rintro (⟨h, rfl⟩ | ⟨h, rfl⟩ | ⟨h, rfl⟩ | ⟨h, rfl⟩ | ⟨h, rfl⟩ | h)
    · exact ⟨.bindAddress h, nofun⟩
    · exact ⟨.cookieName h, nofun⟩
    · exact ⟨.sessionTimeouts h, nofun⟩
    · exact ⟨.sweepInterval h, nofun⟩
    · exact ⟨.circuit h, nofun⟩
    · split at h
      · rename_i path hpath
        rw [mem_faultIf, Bool.or_eq_true, decide_eq_true_eq, decide_eq_true_eq] at h
        obtain ⟨h, rfl⟩ := h
        exact ⟨.postBindingPath hpath h, nofun⟩
      · cases h
  · rintro ⟨h, hglobal⟩
    cases h with
    | bindAddress h => simp [h]
    | cookieName h => simp [h]
    | sessionTimeouts h => simp [h]
    | sweepInterval h => simp [h]
    | circuit h => simp [h]
    | postBindingPath hpath h =>
      refine .inr (.inr (.inr (.inr (.inr ?_))))
      rw [hpath]
      exact mem_faultIf.mpr ⟨by simpa using h, rfl⟩
    | mapping _ _ => exact absurd rfl (hglobal _ _)
    | nameTaken _ _ _ _ _ => exact absurd rfl (hglobal _ _)

/-- All that is wrong is reported, and nothing else. -/
theorem mem_faults {s : Settings} {fault : SettingsFault} :
    fault ∈ faults s ↔ s.AtFault fault := by
  rw [faults_eq, List.mem_append, mem_globalFaults, List.mem_flatMap]
  constructor
  · rintro (⟨h, -⟩ | ⟨i, hi, h⟩)
    · exact h
    · have hm := List.getElem?_eq_getElem (List.mem_range.mp hi)
      rcases (mem_faultsAt hm).mp h with ⟨hne, ⟨j, m', hlt, hj, hname⟩, rfl⟩ | ⟨f, hf, rfl⟩
      · exact .nameTaken hm hne hlt hj hname
      · exact .mapping hm hf
  · have hin : ∀ {i : Nat} {m : MappingSettings}, s.mappings[i]? = some m →
        i ∈ List.range s.mappings.length := by
      intro i m hm
      exact List.mem_range.mpr (List.getElem?_eq_some_iff.mp hm).1
    intro h
    cases h with
    | mapping hm hf => exact .inr ⟨_, hin hm, (mem_faultsAt hm).mpr (.inr ⟨_, hf, rfl⟩)⟩
    | nameTaken hm hne hlt hj hname =>
      exact .inr ⟨_, hin hm, (mem_faultsAt hm).mpr (.inl ⟨hne, ⟨_, _, hlt, hj, hname⟩, rfl⟩)⟩
    | bindAddress h => exact .inl ⟨.bindAddress h, nofun⟩
    | cookieName h => exact .inl ⟨.cookieName h, nofun⟩
    | sessionTimeouts h => exact .inl ⟨.sessionTimeouts h, nofun⟩
    | sweepInterval h => exact .inl ⟨.sweepInterval h, nofun⟩
    | circuit h => exact .inl ⟨.circuit h, nofun⟩
    | postBindingPath hpath h => exact .inl ⟨.postBindingPath hpath h, nofun⟩

theorem isValid_iff {s : Settings} : s.isValid = true ↔ ∀ fault, ¬s.AtFault fault := by
  unfold Settings.isValid
  rw [List.isEmpty_iff, List.eq_nil_iff_forall_not_mem]
  exact forall_congr' fun fault => not_congr mem_faults

/-- Accepted settings have nothing wrong with any mapping. -/
theorem not_atFault {s : Settings} (h : s.isValid = true) (hm : m ∈ s.mappings)
    (fault : MappingFault) : ¬m.AtFault fault := by
  obtain ⟨i, hi⟩ := List.mem_iff_getElem?.mp hm
  exact fun hfault => isValid_iff.mp h _ (.mapping hi hfault)

end Validation
end AccessGateway

import AccessGateway.Proofs.Relay.Sources
import AccessGateway.Proofs.Settings.Faults
import AccessGateway.Proofs.Text.Numerals
import Mathlib.Data.List.TakeWhile

/-!
# Where a backend's address points

The address of a backend for a request is put together from five texts and read again.  Where the
host, the port and the path end is then decided by the marks in the text as a whole, whichever of
the five a mark came from.  So the address points at the backend exactly if the texts that an
operator writes, the host and the start of the path, bring no mark to a wrong place.

## Results

* `Uri.parse_http` — what is read of an absolute address.
* `Uri.leadingHost_port` — which hosts are read in front of a port as they were written.
* `BackendSettings.target_parts` — what is read of a backend's address.
* `backend_address_iff` — when the address points at the backend, and when the path stays a path.
* `backend_address_strays` — settings that are accepted and whose addresses lead elsewhere.
-/

set_option autoImplicit false

namespace AccessGateway

namespace Uri

/-! ## The place that an address names -/

/-- An authority without what stands before its last `@`. -/
def withoutUser (authority : List Char) : List Char :=
  match Text.cutLast? '@' authority with
  | some (_, place) => place
  | none => authority

/-- The host in front of a port: in brackets up to the closing one, else up to the first colon. -/
def leadingHost (place : List Char) : List Char :=
  if place.head? = some '[' then place.takeWhile (· ≠ ']') ++ [']']
  else place.takeWhile (· ≠ ':')

/-- The host that an address names. -/
def host (u : Uri) : String := String.ofList (leadingHost (withoutUser u.authority.toList))

/-- The port that an address names, behind the last colon of its authority. -/
def port? (u : Uri) : Option Nat :=
  (Text.cutLast? ':' u.authority.toList).bind fun (_, digits) => Text.word? UInt16.size digits

/-- A target of a request that starts with a slash. -/
def IsOrigin (u : Uri) : Prop := ∃ text, text.toList.head? = some '/' ∧ parse text = .ok u

variable {u : Uri} {s : List Char} {c : Char}

theorem mem_withoutUser (h : c ∈ withoutUser s) : c ∈ s ∧ c ≠ '@' := by
  by_cases hat : '@' ∈ s
  · obtain ⟨before, after, rfl, hafter⟩ := Outbound.exists_cutLast hat
    rw [withoutUser, Text.cutLast?_append hafter] at h
    refine ⟨by simp_all, ?_⟩
    rintro rfl
    exact hafter h
  · rw [withoutUser, Text.cutLast?_eq_none hat] at h
    refine ⟨h, ?_⟩
    rintro rfl
    exact hat h

theorem withoutUser_of_notMem (h : '@' ∉ s) : withoutUser s = s := by
  rw [withoutUser, Text.cutLast?_eq_none h]

theorem mem_leadingHost (h : c ∈ leadingHost s) : c ∈ s ∨ c = ']' := by
  unfold leadingHost at h
  split at h
  · rcases List.mem_append.mp h with h | h
    · exact .inl (List.takeWhile_subset _ h)
    · exact .inr (List.mem_singleton.mp h)
  · exact .inl (List.takeWhile_subset _ h)

/-- A host that is read as it was written: it is in one pair of brackets as a whole, or it has no
    colon. -/
def StandsAlone (host : List Char) : Prop :=
  if host.head? = some '[' then ∃ inner, host = inner ++ [']'] ∧ ']' ∉ inner else ':' ∉ host

/-- **Which hosts are read in front of a port as they were written.** -/
theorem leadingHost_port {host : List Char} (digits : List Char) :
    leadingHost (host ++ ':' :: digits) = host ↔ StandsAlone host := by
  unfold leadingHost StandsAlone
  by_cases hbracket : host.head? = some '['
  · have hhead : (host ++ ':' :: digits).head? = some '[' := by simp [hbracket]
    rw [if_pos hhead, if_pos hbracket]
    constructor
    · intro h
      refine ⟨_, h.symm, fun hmem => ?_⟩
      simpa using List.mem_takeWhile_imp hmem
    · rintro ⟨inner, rfl, hinner⟩
      rw [List.append_assoc, List.singleton_append, Text.takeWhile_append_sep hinner]
  · rw [if_neg (Outbound.head?_append_cons_ne hbracket digits), if_neg hbracket]
    constructor
    · intro h hmem
      rw [← h] at hmem
      simpa using List.mem_takeWhile_imp hmem
    · intro h
      exact Text.takeWhile_append_sep h digits

/-! ## Reading an address -/

theorem splitScheme_http (s : List Char) :
    splitScheme ("http://".toList ++ s) = .ok (some ("http", s)) := by
  have hname : ("http://".toList ++ s).takeWhile isSchemeChar = "http".toList := by
    rw [show "http://".toList ++ s = "http".toList ++ ':' :: ('/' :: '/' :: s) from rfl,
      List.takeWhile_append_of_pos (List.all_eq_true.mp (by decide)),
      List.takeWhile_cons_of_neg (by decide), List.append_nil]
  have hrest : "://".toList.isPrefixOf? (("http://".toList ++ s).drop "http".toList.length) =
      some s := List.isPrefixOf?_eq_some_iff_append_eq.mpr rfl
  have hshort : ¬"http".toList.length > maxSchemeLength := by decide
  have hhttp : (Text.eqIgnoreCase "http" "http" || Text.eqIgnoreCase "http" "https") = true := by
    decide
  have hlower : Text.toLower "http" = "http" := by decide
  unfold splitScheme
  dsimp only
  rw [hname, hrest]
  dsimp only
  rw [String.ofList_toList, if_neg hshort, if_pos hhttp, hlower]

theorem splitAuthority_eq {text rest : List Char} (h : splitAuthority s = .ok (text, rest)) :
    text = s.takeWhile (fun c => !endsAuthority c) ∧
      rest = s.dropWhile (fun c => !endsAuthority c) := by
  have hdrop : s.drop (s.takeWhile fun c => !endsAuthority c).length =
      s.dropWhile fun c => !endsAuthority c := by
    have hsplit := @List.takeWhile_append_dropWhile _ (fun c => !endsAuthority c) s
    have hlength := congrArg (List.drop (s.takeWhile fun c => !endsAuthority c).length) hsplit
    rw [List.drop_left] at hlength
    exact hlength.symm
  unfold splitAuthority at h
  dsimp only at h
  cases hscan : (s.takeWhile fun c => !endsAuthority c).foldlM AuthorityScan.step
      ⟨0, false, false, false, false⟩ with
  | error e =>
    rw [hscan] at h
    cases h
  | ok state =>
    rw [hscan] at h
    simp only [bind, Except.bind] at h
    split at h
    · cases h
    · cases h
      exact ⟨rfl, hdrop⟩

theorem readResource_eq {resource : String} (h : readResource s = .ok resource) :
    resource.toList = s.takeWhile (· ≠ '#') := by
  unfold readResource at h
  dsimp only at h
  split at h
  · cases h
    exact String.toList_ofList
  · cases h

/-- **What is read of an absolute address**: its authority goes up to the first mark that ends one,
    and its path with the query from there up to a fragment. -/
theorem parse_http {text : String} (htext : text.toList = "http://".toList ++ s)
    (h : parse text = .ok u) :
    u.scheme = some "http" ∧
      u.authority.toList = s.takeWhile (fun c => !endsAuthority c) ∧
      u.resource.toList = (s.dropWhile fun c => !endsAuthority c).takeWhile (· ≠ '#') := by
  have hfirst : text.toList.head? = some 'h' := by
    rw [htext]
    rfl
  unfold parse at h
  dsimp only at h
  split at h
  · cases h
  · split at h
    case h_1 hnil => simp [hnil] at hfirst
    case h_2 hstar => simp [hstar] at hfirst
    case h_3 hslash => simp [hslash] at hfirst
    case h_4 =>
      rw [htext, splitScheme_http] at h
      simp only [bind, Except.bind] at h
      cases hauthority : splitAuthority s with
      | error e =>
        rw [hauthority] at h
        cases h
      | ok parts =>
        obtain ⟨hread, hrest⟩ := splitAuthority_eq hauthority
        rw [hauthority] at h
        dsimp only at h
        split at h
        · cases h
        · cases hresource : readResource parts.2 with
          | error e =>
            rw [hresource] at h
            cases h
          | ok resource =>
            rw [hresource] at h
            cases h
            refine ⟨rfl, ?_, ?_⟩
            · rw [String.toList_ofList, hread]
            · rw [readResource_eq hresource, hrest]

/-- What is known of a target that starts with a slash. -/
theorem IsOrigin.eq (h : u.IsOrigin) : ∃ rest, u = ⟨none, "", String.ofList ('/' :: rest)⟩ ∧
    '#' ∉ rest := by
  obtain ⟨text, hhead, hparse⟩ := h
  obtain ⟨rest, htext⟩ := List.head?_eq_some_iff.mp hhead
  unfold parse at hparse
  rw [htext] at hparse
  dsimp only at hparse
  split at hparse
  · cases hparse
  · cases hresource : readResource ('/' :: rest) with
    | error e =>
      rw [hresource] at hparse
      cases hparse
    | ok resource =>
      rw [hresource] at hparse
      cases hparse
      refine ⟨rest.takeWhile (· ≠ '#'), ?_, fun hmem => ?_⟩
      · have hlist := readResource_eq hresource
        rw [List.takeWhile_cons_of_pos (by decide)] at hlist
        rw [← hlist, String.ofList_toList]
      · simpa using List.mem_takeWhile_imp hmem

end Uri

/-! ## The address of a backend -/

namespace BackendSettings

open Uri

variable {b : BackendSettings} {frontend uri : Uri} {rest : List Char}

/-- A host that is read back as it was written: no mark in it ends the authority or sets off a user,
    and it stands alone in front of a port. -/
structure NamesHost (host : String) : Prop where
  inside : ∀ c ∈ host.toList, endsAuthority c = false
  noUser : '@' ∉ host.toList
  alone : StandsAlone host.toList

/-- The start of a path that neither goes on with a port nor starts a fragment. -/
structure StartsPath (pathStart : String) : Prop where
  ends : ∀ c, pathStart.toList.head? = some c → endsAuthority c = true
  noFragment : '#' ∉ pathStart.toList

/-- The address points at the backend: its host and port are those that were set, and its path and
    query are the start of the path that was set and behind it what the request asks for. -/
structure PointsAt (b : BackendSettings) (frontend uri : Uri) : Prop where
  host : uri.host = b.host
  port : uri.port? = some b.port
  resource : uri.pathAndQuery? = frontend.pathAndQuery?.map (b.pathStart ++ ·)

/-- The text of an address between the scheme and what the request asks for. -/
def place (b : BackendSettings) : List Char :=
  b.host.toList ++ ':' :: ((Text.decimal b.port).toList ++ b.pathStart.toList)

/-- **What is read of a backend's address**: the authority ends at the first mark that ends one, and
    the request brings such a mark at the latest. -/
theorem target_parts (hprotocol : Text.toLower b.protocol = "http")
    (h : b.target ⟨none, "", String.ofList ('/' :: rest)⟩ = .ok uri) :
    uri.scheme = some "http" ∧
      uri.authority.toList = b.place.takeWhile (fun c => !endsAuthority c) ∧
      uri.resource.toList =
        (b.place.dropWhile (fun c => !endsAuthority c) ++ '/' :: rest).takeWhile (· ≠ '#') := by
  have hslash : (!endsAuthority '/') = false := rfl
  have hasked : (⟨none, "", String.ofList ('/' :: rest)⟩ : Uri).pathAndQuery?.getD "/" =
      String.ofList ('/' :: rest) := by
    simp [pathAndQuery?]
  have htext : (b.targetText ⟨none, "", String.ofList ('/' :: rest)⟩).toList =
      "http://".toList ++ (b.place ++ '/' :: rest) := by
    unfold targetText place
    rw [hprotocol, hasked]
    simp [String.toList_append]
  have hparse : Uri.parse (b.targetText ⟨none, "", String.ofList ('/' :: rest)⟩) = .ok uri := by
    unfold target at h
    cases hread : Uri.parse (b.targetText ⟨none, "", String.ofList ('/' :: rest)⟩) with
    | error e =>
      rw [hread] at h
      cases h
    | ok read =>
      rw [hread] at h
      dsimp only at h
      rw [Except.ok.inj h]
  obtain ⟨hscheme, hauthority, hresource⟩ := parse_http htext hparse
  rw [List.takeWhile_append] at hauthority
  rw [List.dropWhile_append] at hresource
  rw [List.takeWhile_cons_of_neg (by simp [hslash]), List.append_nil] at hauthority
  rw [List.dropWhile_cons_of_neg (by simp [hslash])] at hresource
  refine ⟨hscheme, ?_, ?_⟩
  · rw [hauthority]
    split
    · next hall => rw [(List.takeWhile_prefix _).eq_of_length hall]
    · rfl
  · rw [hresource]
    split
    · next hnone => rw [List.isEmpty_iff.mp hnone, List.nil_append]
    · rfl

/-- A host without such a mark goes into the authority as a whole, and the port after it. -/
theorem place_of_inside (h : ∀ c ∈ b.host.toList, endsAuthority c = false) :
    b.place.takeWhile (fun c => !endsAuthority c) =
        b.host.toList ++ ':' :: ((Text.decimal b.port).toList ++
          b.pathStart.toList.takeWhile fun c => !endsAuthority c) ∧
      b.place.dropWhile (fun c => !endsAuthority c) =
        b.pathStart.toList.dropWhile fun c => !endsAuthority c := by
  have hdigit : ∀ c ∈ (Text.decimal b.port).toList, (!endsAuthority c) = true := by
    intro c hc
    rw [Text.decimal, String.toList_ofList] at hc
    have hdigit := Nat.isDigit_of_mem_toDigits (by decide) (by decide) hc
    simp only [endsAuthority, Bool.not_eq_true', Bool.or_eq_false_iff, beq_eq_false_iff_ne]
    exact ⟨⟨Text.ne_of_isDigit hdigit rfl, Text.ne_of_isDigit hdigit rfl⟩,
      Text.ne_of_isDigit hdigit rfl⟩
  have hfront : ∀ c ∈ b.host.toList ++ ':' :: (Text.decimal b.port).toList,
      (!endsAuthority c) = true := by
    intro c hc
    rcases List.mem_append.mp hc with hc | hc
    · rw [h c hc]
      rfl
    · rcases List.mem_cons.mp hc with rfl | hc
      · rfl
      · exact hdigit c hc
  have hplace : b.place =
      (b.host.toList ++ ':' :: (Text.decimal b.port).toList) ++ b.pathStart.toList := by
    simp [place]
  rw [hplace, List.takeWhile_append_of_pos hfront, List.dropWhile_append_of_pos hfront]
  exact ⟨by simp, rfl⟩

/-- The start of a path ends the authority if it is there at all. -/
theorem takeWhile_eq_nil_iff {pathStart : List Char} :
    pathStart.takeWhile (fun c => !endsAuthority c) = [] ↔
      ∀ c, pathStart.head? = some c → endsAuthority c = true := by
  cases pathStart with
  | nil => simp
  | cons c pathStart => cases hc : endsAuthority c <;> simp [hc]

/-- The port that is read behind a host. -/
theorem port?_digits {host : List Char} {port : Nat} (h : port < UInt16.size)
    (hauthority : uri.authority.toList = host ++ ':' :: (Text.decimal port).toList) :
    uri.port? = some port := by
  have hdigit : ∀ c ∈ Nat.toDigits 10 port, c.isDigit = true :=
    fun c hc => Nat.isDigit_of_mem_toDigits (by decide) (by decide) hc
  have hcolon : ':' ∉ Nat.toDigits 10 port := fun hmem => absurd (hdigit _ hmem) (by decide)
  have hplus : ∀ more, Nat.toDigits 10 port ≠ '+' :: more := by
    intro more heq
    exact absurd (hdigit '+' (heq ▸ List.mem_cons_self)) (by decide)
  have hword : Text.word? UInt16.size (Nat.toDigits 10 port) = some port := by
    unfold Text.word?
    split
    · next more heq => exact absurd heq (hplus more)
    · dsimp only
      rw [Text.digits?_toDigits, Option.filter_some, if_pos (by simpa using h)]
  unfold port?
  rw [hauthority, Text.decimal, String.toList_ofList, Text.cutLast?_append hcolon]
  exact hword

/-- The host that is read in front of the port. -/
theorem host_eq_iff (hnoUser : '@' ∉ b.host.toList)
    (hauthority : uri.authority.toList = b.host.toList ++ ':' :: (Text.decimal b.port).toList) :
    uri.host = b.host ↔ StandsAlone b.host.toList := by
  have hat : '@' ∉ uri.authority.toList := by
    rw [hauthority, List.mem_append, List.mem_cons, not_or, not_or]
    refine ⟨hnoUser, by decide, fun hmem => ?_⟩
    rw [Text.decimal, String.toList_ofList] at hmem
    exact absurd (Nat.isDigit_of_mem_toDigits (by decide) (by decide) hmem) (by decide)
  rw [← leadingHost_port (Text.decimal b.port).toList, ← hauthority, ← String.toList_inj, Uri.host,
    String.toList_ofList, withoutUser_of_notMem hat]

/-- What was put together is read as a whole, unless it is nothing but a fragment. -/
theorem resource_eq {pathStart : String}
    (h : uri.resource.toList =
      (pathStart.toList.dropWhile (fun c => !endsAuthority c) ++ '/' :: rest).takeWhile (· ≠ '#'))
    (hsame : (if uri.resource = "" then "/" else uri.resource) =
      pathStart ++ String.ofList ('/' :: rest)) :
    uri.resource.toList = pathStart.toList ++ '/' :: rest := by
  by_cases hempty : uri.resource = ""
  · rw [if_pos hempty] at hsame
    have hone : "/".length = 1 := rfl
    have hlength := congrArg String.length hsame
    rw [hone, String.length_append, String.length_ofList, List.length_cons] at hlength
    have hstart : pathStart = "" := String.length_eq_zero_iff.mp (by omega)
    rw [hstart, hempty] at h
    simp at h
  · rw [if_neg hempty] at hsame
    rw [hsame, String.toList_append, String.toList_ofList]

/-- The path and query are those that were put together exactly if the start of the path was not cut
    at either end. -/
theorem startsPath_iff {pathStart : String} (hrest : '#' ∉ rest)
    (h : uri.resource.toList =
      (pathStart.toList.dropWhile (fun c => !endsAuthority c) ++ '/' :: rest).takeWhile
        (· ≠ '#')) :
    (if uri.resource = "" then "/" else uri.resource) = pathStart ++ String.ofList ('/' :: rest) ↔
      StartsPath pathStart := by
  have hslash : '#' ∉ '/' :: rest := by simpa using hrest
  constructor
  · intro hsame
    have hwhole := resource_eq h hsame
    have hfragment : '#' ∉ pathStart.toList ++ '/' :: rest := by
      intro hmem
      rw [← hwhole, h] at hmem
      simpa using List.mem_takeWhile_imp hmem
    have hlength : pathStart.toList.length ≤
        (pathStart.toList.dropWhile fun c => !endsAuthority c).length := by
      have hshort := (List.takeWhile_prefix (l := pathStart.toList.dropWhile
        (fun c => !endsAuthority c) ++ '/' :: rest) (· ≠ '#')).length_le
      rw [← h, hwhole, List.length_append, List.length_append] at hshort
      omega
    have hnone : pathStart.toList.takeWhile (fun c => !endsAuthority c) = [] := by
      have hsplit := congrArg List.length
        (@List.takeWhile_append_dropWhile _ (fun c => !endsAuthority c) pathStart.toList)
      rw [List.length_append] at hsplit
      exact List.length_eq_zero_iff.mp (by omega)
    exact ⟨takeWhile_eq_nil_iff.mp hnone, fun hmem => hfragment (List.mem_append_left _ hmem)⟩
  · rintro ⟨hends, hfragment⟩
    have hkept : pathStart.toList.dropWhile (fun c => !endsAuthority c) = pathStart.toList := by
      have hsplit :=
        @List.takeWhile_append_dropWhile _ (fun c => !endsAuthority c) pathStart.toList
      rwa [takeWhile_eq_nil_iff.mpr hends, List.nil_append] at hsplit
    have hall : ∀ c ∈ pathStart.toList ++ '/' :: rest, decide (c ≠ '#') = true := by
      intro c hc
      refine decide_eq_true ?_
      rintro rfl
      exact (List.mem_append.mp hc).elim hfragment hslash
    rw [hkept, List.takeWhile_eq_self_iff.mpr hall] at h
    have hsame : uri.resource = pathStart ++ String.ofList ('/' :: rest) := by
      rw [← String.toList_inj, h, String.toList_append, String.toList_ofList]
    have hne : uri.resource ≠ "" := by
      intro hempty
      simp [hempty] at h
    rw [if_neg hne, hsame]

/-- **When an address points at the backend.** -/
theorem pointsAt_iff (hport : b.port < UInt16.size) (hprotocol : Text.toLower b.protocol = "http")
    (hrest : '#' ∉ rest) (h : b.target ⟨none, "", String.ofList ('/' :: rest)⟩ = .ok uri) :
    b.PointsAt ⟨none, "", String.ofList ('/' :: rest)⟩ uri ↔
      NamesHost b.host ∧ StartsPath b.pathStart := by
  obtain ⟨hscheme, hauthority, hresource⟩ := target_parts hprotocol h
  have hasked : (⟨none, "", String.ofList ('/' :: rest)⟩ : Uri).pathAndQuery? =
      some (String.ofList ('/' :: rest)) := by
    simp [pathAndQuery?]
  have hread : uri.pathAndQuery? = some (if uri.resource = "" then "/" else uri.resource) := by
    unfold pathAndQuery?
    rw [hscheme]
    rfl
  constructor
  · intro hpoints
    have hnamed : ∀ c ∈ b.host.toList, endsAuthority c = false ∧ c ≠ '@' := by
      intro c hc
      rw [← hpoints.host, Uri.host, String.toList_ofList] at hc
      rcases mem_leadingHost hc with hc | rfl
      · obtain ⟨hmem, hat⟩ := mem_withoutUser hc
        rw [hauthority] at hmem
        exact ⟨by simpa using List.mem_takeWhile_imp hmem, hat⟩
      · decide
    have hinside : ∀ c ∈ b.host.toList, endsAuthority c = false := fun c hc => (hnamed c hc).1
    have hnoUser : '@' ∉ b.host.toList := fun hmem => (hnamed _ hmem).2 rfl
    obtain ⟨hfront, hback⟩ := place_of_inside hinside
    rw [hback] at hresource
    have hpaths := hpoints.resource
    rw [hread, hasked, Option.map_some] at hpaths
    have hstarts := (startsPath_iff hrest hresource).mp (Option.some.inj hpaths)
    rw [hfront, takeWhile_eq_nil_iff.mpr hstarts.ends, List.append_nil] at hauthority
    refine ⟨⟨hinside, hnoUser, ?_⟩, hstarts⟩
    exact (host_eq_iff hnoUser hauthority).mp hpoints.host
  · rintro ⟨⟨hinside, hnoUser, halone⟩, hstarts⟩
    obtain ⟨hfront, hback⟩ := place_of_inside hinside
    rw [hback] at hresource
    rw [hfront, takeWhile_eq_nil_iff.mpr hstarts.ends, List.append_nil] at hauthority
    refine ⟨(host_eq_iff hnoUser hauthority).mpr halone, port?_digits hport hauthority, ?_⟩
    rw [hread, hasked, Option.map_some, (startsPath_iff hrest hresource).mpr hstarts]

/-- The path that was asked for stays a path, and the query a query, exactly if no query starts
    before them. -/
theorem path_kept_iff {pathStart : String}
    (h : uri.resource.toList = pathStart.toList ++ '/' :: rest) :
    uri.path = pathStart ++ (⟨none, "", String.ofList ('/' :: rest)⟩ : Uri).path ∧
        uri.query? = (⟨none, "", String.ofList ('/' :: rest)⟩ : Uri).query? ↔
      '?' ∉ pathStart.toList := by
  have hasked : (⟨none, "", String.ofList ('/' :: rest)⟩ : Uri).path =
      String.ofList ('/' :: rest.takeWhile (· ≠ '?')) := by
    simp [path]
  rw [hasked]
  constructor
  · rintro ⟨hpath, -⟩ hquery
    obtain ⟨before, after, hsplit, hbefore⟩ := List.eq_append_cons_of_mem hquery
    have hcut : uri.resource.toList.takeWhile (· ≠ '?') = before := by
      rw [h, hsplit, List.append_assoc, List.cons_append, Text.takeWhile_append_sep hbefore]
    have hshort : uri.path.length ≤ before.length + 1 := by
      unfold path
      rw [hcut]
      dsimp only
      split
      · rw [String.length_ofList]
        omega
      · split
        · exact Nat.le_add_left 1 _
        · exact Nat.zero_le _
    have hlength : uri.path.length = before.length + 1 + after.length + 1 +
        (rest.takeWhile (· ≠ '?')).length := by
      rw [hpath, String.length_append, ← String.length_toList, hsplit, String.length_ofList,
        List.length_append, List.length_cons, List.length_cons]
      omega
    omega
  · intro hquery
    have hfront : ∀ c ∈ pathStart.toList ++ ['/'], decide (c ≠ '?') = true := by
      intro c hc
      refine decide_eq_true ?_
      rintro rfl
      simp [hquery] at hc
    have hresource : uri.resource.toList = (pathStart.toList ++ ['/']) ++ rest := by simp [h]
    constructor
    · unfold path
      rw [hresource, List.takeWhile_append_of_pos hfront]
      have hsame : String.ofList (pathStart.toList ++ ['/'] ++ rest.takeWhile (· ≠ '?')) =
          pathStart ++ String.ofList ('/' :: rest.takeWhile (· ≠ '?')) := by
        rw [← String.toList_inj, String.toList_append, String.toList_ofList, String.toList_ofList,
          List.append_assoc, List.singleton_append]
      have hne : String.ofList (pathStart.toList ++ ['/'] ++ rest.takeWhile (· ≠ '?')) ≠ "" := by
        simp
      dsimp only
      rw [if_pos hne, hsame]
    · unfold query?
      rw [hresource, String.toList_ofList]
      by_cases hrest : '?' ∈ rest
      · obtain ⟨before, after, rfl, hbefore⟩ := List.eq_append_cons_of_mem hrest
        rw [← List.append_assoc, Text.cut?_append (by simp [hquery, hbefore]),
          ← List.cons_append, Text.cut?_append (by simp [hbefore])]
        rfl
      · rw [Text.cut?_eq_none (by simp [hquery, hrest]), Text.cut?_eq_none (by simp [hrest])]

end BackendSettings

open BackendSettings in
/-- **When a backend's address points at the backend.**  For accepted settings, a port of sixteen
    bits and a request whose target starts with a slash, an address that is read has the scheme
    `http`.  Its host and port are those that were set, and its path and query the start of the path
    that was set with what is asked for behind it, exactly if the host is one that is read as it was
    written, and the start of the path neither goes on with the port nor starts a fragment.  Then
    what is asked for stays what it was, path and query apart, exactly if no query starts before
    it. -/
theorem backend_address_iff (settings : Settings) (m : MappingSettings) (frontend uri : Uri)
    (hvalid : settings.isValid = true) (hm : m ∈ settings.mappings)
    (hport : m.backend.port < UInt16.size) (horigin : frontend.IsOrigin)
    (htarget : m.backend.target frontend = .ok uri) :
    uri.scheme = some "http" ∧
    (m.backend.PointsAt frontend uri ↔
      NamesHost m.backend.host ∧ StartsPath m.backend.pathStart) ∧
    (m.backend.PointsAt frontend uri →
      (uri.path = m.backend.pathStart ++ frontend.path ∧ uri.query? = frontend.query? ↔
        '?' ∉ m.backend.pathStart.toList)) := by
  have hprotocol : Text.toLower m.backend.protocol = "http" := by
    by_contra hother
    exact Validation.not_atFault hvalid hm _ (.protocolUnknown hother)
  obtain ⟨rest, rfl, hrest⟩ := horigin.eq
  obtain ⟨hscheme, -, hresource⟩ := target_parts hprotocol htarget
  refine ⟨hscheme, pointsAt_iff hport hprotocol hrest htarget, fun hpoints => ?_⟩
  obtain ⟨hnames, hstarts⟩ := (pointsAt_iff hport hprotocol hrest htarget).mp hpoints
  rw [(place_of_inside hnames.inside).2] at hresource
  apply path_kept_iff
  exact resource_eq hresource ((startsPath_iff hrest hresource).mpr hstarts)

/-! ## Backends of a site -/

namespace Backends

/-- A mapping whose backend is reached under the given start of its paths. -/
def mapping (pathStart : String) : MappingSettings :=
  { name := "app", contextRoot := "/app"
    backend := { host := "10.0.0.5", port := 80, pathStart := pathStart } }

def settings (pathStart : String) : Settings := { mappings := [mapping pathStart] }

/-- What a browser asks for. -/
def asked : Uri := ⟨none, "", "/app/x?q=1"⟩

theorem isOrigin_asked : asked.IsOrigin := ⟨"/app/x?q=1", by decide, by decide +kernel⟩

end Backends

/-- A path before the paths of the backend. -/
theorem backend_address_iff_internal :
    (Backends.settings "/internal").isValid = true ∧
    (Backends.mapping "/internal").backend.PointsAt Backends.asked
      ⟨some "http", "10.0.0.5:80", "/internal/app/x?q=1"⟩ := by
  have hvalid : (Backends.settings "/internal").isValid = true := by decide +kernel
  have hnames : BackendSettings.NamesHost "10.0.0.5" :=
    ⟨Text.forall_mem_of_all (by decide), by decide, (if_neg (by decide)).mpr (by decide)⟩
  have hstarts : BackendSettings.StartsPath "/internal" := by
    refine ⟨fun c hc => ?_, by decide⟩
    have hslash : some '/' = some c := hc
    rw [← Option.some.inj hslash]
    rfl
  obtain ⟨-, hpoints, -⟩ := backend_address_iff (Backends.settings "/internal")
    (Backends.mapping "/internal") Backends.asked
    ⟨some "http", "10.0.0.5:80", "/internal/app/x?q=1"⟩ hvalid (List.mem_singleton.mpr rfl)
    (by decide) Backends.isOrigin_asked (by decide +kernel)
  exact ⟨hvalid, hpoints.mpr ⟨hnames, hstarts⟩⟩

/-- Settings are accepted with this start of the path, and an address that is read does not point at
    the backend. -/
def Backends.Strays (pathStart : String) : Prop :=
  (settings pathStart).isValid = true ∧
  ∃ uri, (mapping pathStart).backend.target asked = .ok uri ∧
    ¬(mapping pathStart).backend.PointsAt asked uri

/-- A start of the path that goes on with the port, one that names another host behind an `@`, and
    one that loses what is asked for in a fragment. -/
theorem backend_address_strays :
    Backends.Strays "80" ∧ Backends.Strays "@evil.example" ∧ Backends.Strays "/internal#" := by
  refine ⟨⟨by decide +kernel, ⟨some "http", "10.0.0.5:8080", "/app/x?q=1"⟩, by decide +kernel, ?_⟩,
    ⟨by decide +kernel, ⟨some "http", "10.0.0.5:80@evil.example", "/app/x?q=1"⟩, by decide +kernel,
      ?_⟩,
    ⟨by decide +kernel, ⟨some "http", "10.0.0.5:80", "/internal"⟩, by decide +kernel, ?_⟩⟩
  · intro h
    exact absurd h.port (by decide +kernel)
  · intro h
    exact absurd h.host (by decide +kernel)
  · intro h
    exact absurd h.resource (by decide +kernel)

end AccessGateway

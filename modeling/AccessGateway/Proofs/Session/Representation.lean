import AccessGateway.Access.Authorize
import AccessGateway.Proofs.Session.Replay
import AccessGateway.Proofs.Wire.CookieText

/-!
# How a session is kept

Roles, cookies and header fields are kept in rows, in which what is new takes the place of its
namesake.  Many parts of the gateway change a session: commands, harvests, decisions, and callers
that hold it.  All of them leave the rows without namesakes.

## Results

* `Role.isName_of_mem_parseList` — the roles of a list of definitions have proper names.
* `HeaderJar.working_entries` — a jar without namesakes is handed out as it is.
* `Session.Sound` — what is true of the rows of a session, with one lemma for each change;
  `Sound.authorize` — for whatever a decision changes.
* `session_representation` — what is true of every session, after any changes.
-/

set_option autoImplicit false

namespace AccessGateway

/-- A row without namesakes has none after one more is put at the end in place of its namesake. -/
theorem nodup_map_replace {α β : Type} [DecidableEq β] (key : α → β) {xs : List α}
    (h : (xs.map key).Nodup) (x : α) :
    ((xs.filter (key · ≠ key x) ++ [x]).map key).Nodup := by
  rw [List.map_append, List.nodup_append]
  refine ⟨h.sublist (List.filter_sublist.map key), List.nodup_singleton _, fun a ha b hb hab => ?_⟩
  obtain ⟨y, hy, rfl⟩ := List.mem_map.mp ha
  have hother : key y ≠ key x := by simpa using (List.mem_filter.mp hy).2
  exact hother (hab.trans (List.mem_singleton.mp hb))

/-! ## Names of roles -/

namespace Role

/-- A name that a definition in a list can give to a role. -/
structure IsName (name : String) : Prop where
  nonempty : name ≠ ""
  comma : ',' ∉ name.toList
  colon : ':' ∉ name.toList

theorem isName_of_parse? {definition : List Char} {now : Instant} {r : Role}
    (hcomma : ',' ∉ definition) (h : parse? definition now = some r) : IsName r.name := by
  unfold parse? at h
  split at h
  · cases h
  · rename_i name limits hfields
    obtain ⟨hcolon, hsub⟩ := Text.mem_fields (hfields ▸ List.mem_cons_self)
    split at h
    · cases h
    · rename_i hne
      cases h
      refine ⟨?_, ?_, ?_⟩
      · simpa [← String.toList_inj] using hne
      · rw [String.toList_ofList]
        exact fun hmem => hcomma (Text.mem_of_mem_trim (hsub _ hmem))
      · rw [String.toList_ofList]
        exact hcolon

theorem isName_of_mem_parseList {definitions : String} {now : Instant} {r : Role}
    (h : r ∈ parseList definitions now) : IsName r.name := by
  obtain ⟨definition, hdefinition, hr⟩ := List.mem_filterMap.mp h
  exact isName_of_parse? (Text.mem_fields hdefinition).1 hr

end Role

/-! ## Header jars -/

theorem Text.toLower_toLower (s : String) : toLower (toLower s) = toLower s := by
  have hchar : ∀ c : Char, c.toLower.toLower = c.toLower := by
    intro c
    unfold Char.toLower
    grind
  unfold toLower
  rw [String.toList_ofList, List.map_map]
  refine congrArg String.ofList (List.map_congr_left fun c _ => ?_)
  exact hchar c

theorem HeaderName.toLower_of_parse? {text : String} {name : HeaderName}
    (h : parse? text = some name) : Text.toLower name.text = name.text := by
  unfold parse? at h
  dsimp only at h
  split at h
  · cases h
    exact Text.toLower_toLower text
  · cases h

theorem Headers.entries_insert (h : Headers) (name : HeaderName) (value : HeaderValue) :
    (h.insert name value).entries = h.entries.filter (·.1 ≠ name) ++ [(name, value)] := rfl

/-- The working set of a jar without namesakes has all its fields, in order. -/
theorem HeaderJar.working_entries {jar : HeaderJar} (h : (jar.entries.map (·.1)).Nodup) :
    jar.working.entries = jar.entries := by
  obtain ⟨entries⟩ := jar
  unfold working
  dsimp only at h ⊢
  induction entries using List.reverseRecOn with
  | nil => rfl
  | append_singleton es e ih =>
    rw [List.map_append, List.nodup_append] at h
    obtain ⟨hes, -, hnew⟩ := h
    have hothers : es.filter (fun x => x.1 ≠ e.1) = es := by
      refine List.filter_eq_self.mpr fun x hx => ?_
      simpa using hnew x.1 (List.mem_map_of_mem hx) e.1 (by simp)
    rw [List.foldl_append, List.foldl_cons, List.foldl_nil, Headers.entries_insert, ih hes, hothers]

/-! ## Cookie jars -/

namespace CookieJar

open Stored

theorem latest_ne_nil {log : List Stored} (h : log ≠ []) : latest log ≠ [] := by
  obtain rfl | ⟨older, c, rfl⟩ := List.eq_nil_or_concat log
  · exact absurd rfl h
  · rw [List.concat_eq_append, latest_concat]
    simp

/-- The paths of a jar that was filled cookie by cookie are different. -/
theorem nodup_shelves_ofLog (log : List Stored) : ((ofLog log).shelves.map (·.1)).Nodup := by
  rw [shelves_ofLog, List.map_map]
  exact (List.map_id _).symm ▸ nodup_paths log

/-- No shelf is empty, and the names on a shelf are different. -/
theorem shelf_ofLog {log : List Stored} {shelf : String × List (String × String)}
    (h : shelf ∈ (ofLog log).shelves) : shelf.2 ≠ [] ∧ (shelf.2.map (·.1)).Nodup := by
  rw [shelves_ofLog] at h
  obtain ⟨path, hpath, rfl⟩ := List.mem_map.mp h
  constructor
  · -- there is a path only because a cookie was stored under it
    obtain ⟨c, hc, rfl⟩ := mem_paths.mp hpath
    have hshelf : log.filter (·.path = c.path) ≠ [] :=
      List.ne_nil_of_mem (List.mem_filter.mpr ⟨hc, by simp⟩)
    exact mt List.map_eq_nil_iff.mp (latest_ne_nil hshelf)
  · rw [List.map_map]
    exact nodup_latest _

theorem storeAll_ofLog (root : String) (log : List Stored) (fields : List String) :
    ∃ more, ((ofLog log).storeAll root fields).1 = ofLog (log ++ more) := by
  rw [storeAll_eq]
  exact ⟨_, foldl_put root log _⟩

end CookieJar

/-! ## Sessions -/

namespace Session

variable {granted : String → Prop} {s t : Session} {now : Instant}

/-- What is true of the rows of a session: there are no namesakes in them, roles have names that a
    list of definitions can give or that a caller granted, cookies were stored one by one, and the
    names of header fields are in small letters. -/
structure Sound (granted : String → Prop) (s : Session) : Prop where
  roles : s.roleNames.Nodup
  named : ∀ name ∈ s.roleNames, Role.IsName name ∨ granted name
  cookies : ∃ log, s.cookies = CookieJar.ofLog log
  headers : (s.headers.entries.map (·.1)).Nodup
  small : ∀ e ∈ s.headers.entries, Text.toLower e.1.text = e.1.text

theorem sound_fresh : Sound granted fresh := by
  refine ⟨List.nodup_nil, ?_, ⟨[], rfl⟩, List.nodup_nil, ?_⟩
  · exact fun _ h => nomatch h
  · exact fun _ h => nomatch h

/-- Everything else that a session keeps does not matter. -/
theorem Sound.of_same (h : Sound granted s) (hroles : t.roleNames = s.roleNames)
    (hcookies : t.cookies = s.cookies) (hheaders : t.headers = s.headers) : Sound granted t :=
  ⟨hroles ▸ h.roles, hroles ▸ h.named, hcookies ▸ h.cookies, hheaders ▸ h.headers,
    hheaders ▸ h.small⟩

theorem Sound.destroy (s : Session) : Sound granted s.destroy := sound_fresh.of_same rfl rfl rfl

/-! ### Roles -/

theorem Sound.addRole (h : Sound granted s) {r : Role} (hr : Role.IsName r.name ∨ granted r.name) :
    Sound granted (s.addRole r) := by
  refine ⟨nodup_map_replace Role.name h.roles r, fun name hname => ?_, h.cookies, h.headers,
    h.small⟩
  obtain ⟨role, hrole, rfl⟩ := List.mem_map.mp hname
  obtain hold | hnew := List.mem_append.mp hrole
  · exact h.named _ (List.mem_map_of_mem (List.mem_filter.mp hold).1)
  · rw [List.mem_singleton.mp hnew]
    exact hr

theorem Sound.addRoles (h : Sound granted s) {rs : List Role}
    (hrs : ∀ r ∈ rs, Role.IsName r.name) : Sound granted (s.addRoles rs) := by
  unfold Session.addRoles
  induction rs generalizing s with
  | nil => exact h
  | cons r rs ih =>
    rw [List.forall_mem_cons] at hrs
    exact ih (h.addRole (.inl hrs.1)) hrs.2

theorem Sound.clearRoles (h : Sound granted s) : Sound granted s.clearRoles :=
  ⟨List.nodup_nil, (fun _ hname => nomatch hname), h.cookies, h.headers, h.small⟩

/-- A role that is used keeps its name and its place. -/
theorem names_useFirst {usable : Role → Bool} {roles used : List Role} {name : String}
    (h : useFirst usable now roles = some (name, used)) :
    used.map (·.name) = roles.map (·.name) := by
  induction roles generalizing used with
  | nil => cases h
  | cons role roles ih =>
    unfold useFirst at h
    split at h
    · cases h
      rfl
    · obtain ⟨⟨_, rest⟩, hrest, heq⟩ := Option.map_eq_some_iff.mp h
      cases heq
      rw [List.map_cons, List.map_cons, ih hrest]

theorem Sound.useAnyRole (h : Sound granted s) {required : List String} {name : String}
    (hu : s.useAnyRole required now = some (name, t)) : Sound granted t := by
  obtain ⟨⟨_, roles⟩, hused, heq⟩ := Option.map_eq_some_iff.mp hu
  cases heq
  exact h.of_same (names_useFirst hused) rfl rfl

/-! ### Commands, harvests, decisions -/

theorem Sound.commands (h : Sound granted s) (now : Instant) (cs : List Command) :
    Sound granted (Command.run s now cs).1 := by
  induction cs generalizing s with
  | nil => exact h
  | cons c cs ih =>
    cases c with
    | addCredentials roles => exact ih (h.addRoles fun _ => Role.isName_of_mem_parseList)
    | setCredentials roles =>
      exact ih (h.clearRoles.addRoles fun _ => Role.isName_of_mem_parseList)
    | auditToken token => exact ih (h.of_same rfl rfl rfl)
    | endSession reason => exact h

theorem Sound.storeCookies (h : Sound granted s) (root : String) (fields : List String) :
    Sound granted { s with cookies := (s.cookies.storeAll root fields).1 } := by
  obtain ⟨log, hlog⟩ := h.cookies
  obtain ⟨more, hmore⟩ := CookieJar.storeAll_ofLog root log fields
  exact ⟨h.roles, h.named, ⟨log ++ more, hlog ▸ hmore⟩, h.headers, h.small⟩

theorem Sound.harvest (h : Sound granted s) (root : String) (values : List HeaderValue)
    (now : Instant) : Sound granted (Harvest.run s root values now).1 := by
  cases he : Harvest.endsSession values with
  | true =>
    rw [Harvest.run_ended s root values he]
    exact .destroy s
  | false =>
    have hcommands := h.commands now (Harvest.commands values)
    rw [Command.run_eq] at hcommands
    rw [Harvest.run_kept s root values he]
    exact hcommands.storeCookies root _

theorem Sound.checkRoles (h : Sound granted s) (m : Mapping) (now : Instant) :
    Sound granted (m.checkRoles s now).1 := by
  have hnoted : Sound granted (s.recordAccess m.contextRoot now) := h.of_same rfl rfl rfl
  unfold Mapping.checkRoles
  dsimp only
  split
  · exact hnoted
  · split
    · rename_i hu
      exact hnoted.useAnyRole hu
    · exact hnoted

theorem Sound.checkAndConsume (h : Sound granted s) (m : Mapping) (now : Instant) :
    Sound granted (OneShot.checkAndConsume m s now).1 := (h.checkRoles m now).clearRoles

section Decisions

variable (m : Mapping) (peers : IdentityPeers) (r : AccessRequest) (st : RequestState)

theorem Sound.oneShot (h : Sound granted s) (url : String) :
    Sound granted (OneShot.authorize m url peers r s st).session := by
  have hchecked := h.checkAndConsume m r.now
  unfold OneShot.authorize
  split
  · rename_i hc
    rwa [hc] at hchecked
  · rename_i hc
    rw [hc] at hchecked
    dsimp only
    split
    · exact hchecked
    · exact hchecked
    · -- the roles that the answer granted are checked once more, and taken away
      rename_i a _
      exact (hchecked.harvest m.contextRoot a.setCookies r.now).checkAndConsume m r.now

theorem Sound.exchange (h : Sound granted s) (client : ExchangeClient)
    (checks : List TokenCheck) :
    Sound granted (TokenExchange.exchange m client peers r s st checks).session := by
  unfold TokenExchange.exchange
  split
  · exact h
  · dsimp only
    split
    · exact h
    · exact h
    · rename_i a _
      split
      · exact h
      · exact h.harvest m.contextRoot a.setCookies r.now

/-- A decision under any mapping, whatever the peers say. -/
theorem Sound.authorize (h : Sound granted s) :
    Sound granted (m.authorize peers r s st).session := by
  unfold Mapping.authorize
  split
  · exact h.checkRoles m r.now
  · exact h.checkRoles m r.now
  · exact h.checkRoles m r.now
  · exact h.oneShot m peers r st _
  · unfold TokenExchange.authorize
    split
    · exact h.exchange m peers r st _ _
    · split
      · exact h
      · exact h
      · exact h.exchange m peers r st _ _
  · exact h

end Decisions

/-! ### What callers store -/

theorem Sound.insertCookie (h : Sound granted s) (path name value : String) :
    Sound granted { s with cookies := s.cookies.insert path name value } := by
  obtain ⟨log, hlog⟩ := h.cookies
  refine ⟨h.roles, h.named, ⟨log ++ [⟨path, name, value⟩], ?_⟩, h.headers, h.small⟩
  rw [CookieJar.ofLog_concat, hlog]

theorem Sound.storeHeader (h : Sound granted s) {name : HeaderName}
    (hname : Text.toLower name.text = name.text) (value : HeaderValue) :
    Sound granted { s with headers := s.headers.store name value } := by
  refine ⟨h.roles, h.named, h.cookies, nodup_map_replace Prod.fst h.headers (name, value),
    fun e he => ?_⟩
  obtain hold | hnew := List.mem_append.mp he
  · exact h.small e (List.mem_filter.mp hold).1
  · rw [List.mem_singleton.mp hnew]
    exact hname

end Session

/-! ## Runs -/

/-- Something that changes a session. -/
inductive SessionStep where
  /-- Commands are carried out. -/
  | commands (cs : List Command) (now : Instant)
  /-- The cookies of an answer are harvested. -/
  | harvest (root : String) (values : List HeaderValue) (now : Instant)
  /-- A mapping decides. -/
  | authorize (m : Mapping) (peers : IdentityPeers) (r : AccessRequest) (st : RequestState)
  | insertCookie (path name value : String)
  | storeCookies (root : String) (fields : List String)
  /-- A header field is stored, unless its name cannot be one. -/
  | storeHeader (name : String) (value : HeaderValue)
  /-- A caller grants a role under any name. -/
  | grant (r : Role)
  | clearRoles
  | useRole (required : List String) (now : Instant)
  | recordAccess (root : String) (now : Instant)
  | destroy

namespace Session

/-- The session after a change. -/
def step (s : Session) : SessionStep → Session
  | .commands cs now => (Command.run s now cs).1
  | .harvest root values now => (Harvest.run s root values now).1
  | .authorize m peers r st => (m.authorize peers r s st).session
  | .insertCookie path name value => { s with cookies := s.cookies.insert path name value }
  | .storeCookies root fields => { s with cookies := (s.cookies.storeAll root fields).1 }
  | .storeHeader name value =>
    match HeaderName.parse? name with
    | some name => { s with headers := s.headers.store name value }
    | none => s
  | .grant r => s.addRole r
  | .clearRoles => s.clearRoles
  | .useRole required now => ((s.useAnyRole required now).map (·.2)).getD s
  | .recordAccess root now => s.recordAccess root now
  | .destroy => s.destroy

/-- The session after a row of changes. -/
def run (s : Session) (steps : List SessionStep) : Session := steps.foldl step s

variable {granted : String → Prop} {s : Session}

/-- One change. -/
theorem Sound.step (h : Sound granted s) {e : SessionStep}
    (hgranted : ∀ r, e = .grant r → granted r.name) : Sound granted (s.step e) := by
  cases e with
  | commands cs now => exact h.commands now cs
  | harvest root values now => exact h.harvest root values now
  | authorize m peers r st => exact h.authorize m peers r st
  | insertCookie path name value => exact h.insertCookie path name value
  | storeCookies root fields => exact h.storeCookies root fields
  | storeHeader name value =>
    unfold Session.step
    dsimp only
    split
    · rename_i hname
      exact h.storeHeader (HeaderName.toLower_of_parse? hname) value
    · exact h
  | grant r => exact h.addRole (.inr (hgranted r rfl))
  | clearRoles => exact h.clearRoles
  | useRole required now =>
    unfold Session.step
    dsimp only
    cases hu : s.useAnyRole required now with
    | none => exact h
    | some used => exact h.useAnyRole hu
  | recordAccess root now => exact h.of_same rfl rfl rfl
  | destroy => exact .destroy s

/-- A row of changes. -/
theorem Sound.run (h : Sound granted s) {steps : List SessionStep}
    (hgranted : ∀ r, .grant r ∈ steps → granted r.name) : Sound granted (s.run steps) := by
  unfold Session.run
  induction steps generalizing s with
  | nil => exact h
  | cons e es ih =>
    refine ih (h.step fun r he => hgranted r ?_) fun r hr => hgranted r (List.mem_cons_of_mem e hr)
    exact he ▸ List.mem_cons_self

end Session

/-- **The rows of a session have no namesakes.**  Whatever was done with a session after it was
    made: no two of its roles have one name, and a role has a name that is not empty and has neither
    comma nor colon in it, unless a caller granted it directly; the shelves of the cookie jar have
    different paths, none is empty, and the cookies on a shelf have different names; and the names
    in the header jar differ without regard to case, so that its working set has all its fields. -/
theorem session_representation (steps : List SessionStep) :
    let s := Session.fresh.run steps
    (s.roleNames.Nodup ∧
      (∀ name ∈ s.roleNames,
        Role.IsName name ∨ ∃ r, SessionStep.grant r ∈ steps ∧ r.name = name) ∧
      ∀ definitions now, ∀ r ∈ Role.parseList definitions now, Role.IsName r.name) ∧
    ((s.cookies.shelves.map (·.1)).Nodup ∧
      ∀ shelf ∈ s.cookies.shelves, shelf.2 ≠ [] ∧ (shelf.2.map (·.1)).Nodup) ∧
    (s.headers.entries.map fun e => Text.toLower e.1.text).Nodup ∧
      s.headers.working.entries = s.headers.entries := by
  intro s
  have hsound : s.Sound fun name => ∃ r, SessionStep.grant r ∈ steps ∧ r.name = name :=
    Session.sound_fresh.run fun r hr => ⟨r, hr, rfl⟩
  obtain ⟨log, hlog⟩ := hsound.cookies
  refine ⟨⟨hsound.roles, hsound.named, fun _ _ _ => Role.isName_of_mem_parseList⟩, ?_, ?_,
    HeaderJar.working_entries hsound.headers⟩
  · rw [hlog]
    exact ⟨CookieJar.nodup_shelves_ofLog log, fun _ => CookieJar.shelf_ofLog⟩
  · have htexts : (s.headers.entries.map fun e => Text.toLower e.1.text) =
        (s.headers.entries.map (·.1)).map (·.text) := by
      rw [List.map_map]
      exact List.map_congr_left hsound.small
    rw [htexts]
    refine hsound.headers.map fun a b hab => ?_
    cases a
    cases b
    cases hab
    rfl

end AccessGateway

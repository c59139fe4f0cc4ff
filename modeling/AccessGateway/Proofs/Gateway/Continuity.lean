import AccessGateway.Proofs.Gateway.Staying
import AccessGateway.Proofs.Wire.BrowserCookie
import AccessGateway.Settings.Validation

/-!
# Continuity of a session

A browser that opens a session is told the session's id in a cookie.  While it sends the cookie back
and the session neither expires nor is ended, its requests are to get this session.  The session is
there all that time.  Whether a request gets it depends on the cookie alone: its name has to be one
that is read as it was written, and the field that it comes in has to be plain text throughout.

## Results

* `SessionStore.Keeps` — what is known of a session that was opened and visited.
* `Server.knows_served`, `Server.opened_keeps`, `Server.keeps_step`, `Server.keeps_run` — opening a
  session, one event, and a row of events.
* `session_resumed_iff` — when a cookie that is sent back brings the session back.
* `session_resumed_blank` — the settings may name the cookie so that it never does.
-/

set_option autoImplicit false

namespace AccessGateway

/-! ## A session that is kept -/

namespace SessionStore

variable {st : SessionStore} {id freshId : String} {asked : Option String}
  {opened visited now later : Instant} {held : HeldSession}

/-- A request that was given an id, and not as a fresh one, found who is known under it. -/
theorem Knows.sought?_of_given (h : st.Knows id now (some held)) (hne : freshId ≠ id)
    (hid : (st.resolve asked freshId now).2.1.id = id) : st.sought? asked now = some held := by
  cases hs : st.sought? asked now with
  | none =>
    rw [resolve_of_none hs] at hid
    exact absurd hid hne
  | some other =>
    obtain ⟨key, rfl, hkey⟩ := Option.bind_eq_some_iff.mp hs
    rw [resolve_of_some hkey] at hid
    have hid' : key = id := hid
    rw [hid'] at hkey
    exact (h.eq_some hkey).symm

/-- A request that was given a fresh session found nobody. -/
theorem sought?_of_created (h : (st.resolve asked freshId now).2.1.created = true) :
    st.sought? asked now = none := by
  cases hs : st.sought? asked now with
  | none => rfl
  | some other =>
    obtain ⟨key, rfl, hkey⟩ := Option.bind_eq_some_iff.mp hs
    rw [resolve_of_some hkey] at h
    cases h

/-- The session under an id was opened and last visited at the given instants, and was not removed
    since. -/
def Keeps (st : SessionStore) (id : String) (opened visited now : Instant) : Prop :=
  ∃ held, st.Knows id now (some held) ∧ held.createdAt = opened ∧
    held.lastSeen = Duration.millis (visited - opened)

theorem Keeps.mono (h : st.Keeps id opened visited now) (hle : now ≤ later) :
    st.Keeps id opened visited later := by
  obtain ⟨held, hknows, hheld⟩ := h
  exact ⟨held, hknows.mono hle, hheld⟩

/-- Until it expires, a request that comes with the id gets it. -/
theorem Keeps.resolve (h : st.Keeps id opened visited now)
    (hlifetime : now - opened < st.limits.lifetime)
    (hidle : now - opened - Duration.ofMillis (Duration.millis (visited - opened)) <
      st.limits.idle) :
    (st.resolve (some id) freshId now).2.1.id = id ∧
      (st.resolve (some id) freshId now).2.1.created = false := by
  obtain ⟨held, hknows, rfl, hseen⟩ := h
  have halive : held.alive st.limits now = true := by
    rw [HeldSession.alive_iff, hseen]
    exact ⟨hlifetime, hidle⟩
  have hliving : st.alive? id now = some held := by
    rw [hknows now (Nat.le_refl _)]
    exact Option.filter_eq_some_iff.mpr ⟨rfl, halive⟩
  rw [resolve_of_some hliving]
  exact ⟨rfl, rfl⟩

end SessionStore

/-! ## Events -/

namespace Server

variable {s : Server} {w : Surroundings} {r : Request} {id : String} {p : String × String}
  {opened visited now later : Instant} {e : ServerEvent} {events : List ServerEvent}

/-- A request that is served and does not end its session leaves it as it was entered, but for its
    state. -/
theorem knows_served (hserved : s.service? (RequestId.assign w.freshRequest r) ≠ none)
    (hquiet : ¬s.LogsOut w r) :
    ∃ session, (s.step (.request w r)).gateway.sessions.Knows (s.gateway.found w r.headers).id
      w.arrival (some
        { SessionStore.enter
            (s.gateway.sessions.sought? (r.headers.requestCookie? s.gateway.cookieName) w.arrival)
            w.arrival with
          session }) := by
  rw [step_service]
  split
  · rename_i m hm
    have hends : s.gateway.ends w m (RequestId.assign w.freshRequest r) = false := by
      rw [Bool.eq_false_iff]
      exact fun hends => hquiet ((logsOut_iff hm).mpr (Gateway.endsSession_of_ends hends))
    have hself := Gateway.knows_handle_self (g := s.gateway) (w := w) (m := m)
      (r := RequestId.assign w.freshRequest r)
    rw [hends, Gateway.found_assign, RequestId.assign_requestCookie?] at hself
    exact ⟨_, hself⟩
  · exact ⟨_, SessionStore.knows_kept rfl _⟩
  · rename_i hnone
    exact absurd hnone hserved

/-- A request opens a session, and a browser reads a name and a value from the session cookie in the
    answer. -/
structure Opens (s : Server) (w : Surroundings) (r : Request) (p : String × String) : Prop where
  created : (s.gateway.found w r.headers).created = true
  cookie : ∃ v ∈ (s.answer w r).2.2.headers.values .setCookie,
    HeaderValue.ofText? (BrowserCookie.session s.gateway.cookieName w.freshSession) = some v ∧
    v.cookie? = some p

/-- A session is kept as soon as it was opened, unless it was ended at once. -/
theorem opened_keeps (h : s.Opens w r p) (hquiet : ¬s.LogsOut w r) :
    (s.step (.request w r)).gateway.sessions.Keeps w.freshSession w.arrival w.arrival
      w.arrival := by
  have hserved : s.service? (RequestId.assign w.freshRequest r) ≠ none := by
    intro hnone
    obtain ⟨v, hv, -⟩ := h.cookie
    obtain ⟨status, metrics, hx⟩ := exchange_unserved hnone
    rw [answer_setCookies, hx] at hv
    cases hv
  have hsought : s.gateway.sessions.sought? (r.headers.requestCookie? s.gateway.cookieName)
      w.arrival = none := SessionStore.sought?_of_created h.created
  have hid : (s.gateway.found w r.headers).id = w.freshSession := by
    unfold Gateway.found Gateway.sessionFor
    dsimp only
    rw [SessionStore.resolve_of_none hsought]
  obtain ⟨session, hknows⟩ := knows_served hserved hquiet
  rw [hid, hsought] at hknows
  refine ⟨_, hknows, rfl, ?_⟩
  rw [Nat.sub_self]
  rfl

/-- When a session was visited last, in a row of events after an instant. -/
def lastVisit (id : String) (s : Server) (events : List ServerEvent) (visited : Instant) :
    Instant :=
  ((s.visits id events).getLast?.map (·.arrival)).getD visited

theorem lastVisit_cons : s.lastVisit id (e :: events) visited =
    (s.step e).lastVisit id events (s.lastVisit id [e] visited) := by
  unfold lastVisit
  rw [visits, visits, visits, List.append_nil, List.getLast?_append, Option.map_or,
    Option.getD_or]

/-- An event visits a session once or not at all. -/
theorem visitsOf_cases (id : String) (s : Server) (e : ServerEvent) :
    s.visitsOf id e = [] ∨ ∃ w r v, e = .request w r ∧ (s.gateway.found w r.headers).id = id ∧
      s.service? (RequestId.assign w.freshRequest r) ≠ none ∧ s.visitsOf id e = [v] ∧
      v.arrival = w.arrival := by
  cases e with
  | sweep now => exact .inl rfl
  | request w r =>
    unfold visitsOf
    by_cases hid : (s.gateway.found w r.headers).id = id
    · dsimp only
      rw [if_pos hid]
      cases hservice : s.service? (RequestId.assign w.freshRequest r) with
      | none => exact .inl rfl
      | some service =>
        refine .inr ?_
        cases service with
        | mapping m => exact ⟨w, r, _, rfl, hid, by simp [hservice], rfl, rfl⟩
        | binding posted => exact ⟨w, r, _, rfl, hid, by simp [hservice], rfl, rfl⟩
    · exact .inl (if_neg hid)

/-- **One event**: a session that goes on is kept, and its last visit is known. -/
theorem keeps_step (hdistinct : s.gateway.sessions.Distinct)
    (h : s.gateway.sessions.Keeps id opened visited e.time) (hcontinues : s.Continues id e) :
    (s.step e).gateway.sessions.Keeps id opened (s.lastVisit id [e] visited) e.time := by
  obtain ⟨held, hknows, hopened, hseen⟩ := h
  have hvisits : s.visits id [e] = s.visitsOf id e := by rw [visits, visits, List.append_nil]
  unfold lastVisit
  rw [hvisits]
  rcases visitsOf_cases id s e with hnone | ⟨w, r, v, rfl, hid, hserved, hvisit, harrival⟩
  · have hstep := knows_step hdistinct hknows
    rw [hnone] at hstep ⊢
    exact ⟨held, hstep, hopened, hseen⟩
  · obtain ⟨hne, hquiet⟩ := hcontinues
    obtain ⟨session, hstep⟩ := knows_served hserved (hquiet hid)
    have hsought : s.gateway.sessions.sought? (r.headers.requestCookie? s.gateway.cookieName)
        w.arrival = some held := hknows.sought?_of_given hne hid
    have hentered : SessionStore.enter (some held) w.arrival = held.touch w.arrival := rfl
    rw [hid, hsought, hentered] at hstep
    rw [hvisit, List.getLast?_singleton, Option.map_some, Option.getD_some, harrival, ← hopened]
    exact ⟨_, hstep, rfl, rfl⟩

/-- **A whole row of events**. -/
theorem keeps_run (hdistinct : s.gateway.sessions.Distinct)
    (h : s.gateway.sessions.Keeps id opened visited now)
    (hcontinues : s.Throughout (Continues id) events) (hfrom : ∀ e ∈ events, now ≤ e.time)
    (hordered : events.Pairwise (·.time ≤ ·.time)) (hlater : ∀ e ∈ events, e.time ≤ later)
    (hle : now ≤ later) :
    (s.run events).gateway.sessions.Keeps id opened (s.lastVisit id events visited) later := by
  induction events generalizing s visited now with
  | nil => exact h.mono hle
  | cons e events ih =>
    obtain ⟨hfirst, hrest⟩ := hcontinues
    obtain ⟨hnext, hordered⟩ := List.pairwise_cons.mp hordered
    have hstep := keeps_step hdistinct (h.mono (hfrom e List.mem_cons_self)) hfirst
    rw [lastVisit_cons]
    exact ih (step_distinct hdistinct) hstep hrest hnext hordered
      (fun e' he' => hlater e' (List.mem_cons_of_mem _ he')) (hlater e List.mem_cons_self)

end Server

/-- The session that a request opens lasts through a row of events and up to an instant: its id is
    handed out to nobody else, no command ends it, and it has outlived neither limit. -/
structure Server.Lasts (s : Server) (w : Surroundings) (r : Request) (events : List ServerEvent)
    (now : Instant) : Prop where
  opened : ¬s.LogsOut w r
  continues : (s.step (.request w r)).Throughout (Server.Continues w.freshSession) events
  lifetime : now - w.arrival < s.gateway.sessions.limits.lifetime
  idle : now - w.arrival - Duration.ofMillis (Duration.millis
      ((s.step (.request w r)).lastVisit w.freshSession events w.arrival - w.arrival)) <
    s.gateway.sessions.limits.idle

/-- A session that lasts is kept. -/
theorem Server.Opens.keeps {s : Server} {w : Surroundings} {r : Request} {p : String × String}
    {between : List ServerEvent} {now : Instant} (h : s.Opens w r p)
    (hlasts : s.Lasts w r between now) (hdistinct : s.gateway.sessions.Distinct)
    (hfrom : ∀ e ∈ between, w.arrival ≤ e.time) (hordered : between.Pairwise (·.time ≤ ·.time))
    (hlater : ∀ e ∈ between, e.time ≤ now) (hle : w.arrival ≤ now) :
    ((s.step (.request w r)).run between).gateway.sessions.Keeps w.freshSession w.arrival
      ((s.step (.request w r)).lastVisit w.freshSession between w.arrival) now :=
  keeps_run (step_distinct hdistinct) (opened_keeps h hlasts.opened) hlasts.continues hfrom
    hordered hlater hle

/-- Under such a name the browser reads what was written. -/
theorem Server.Opens.eq_of_isName {s : Server} {w : Surroundings} {r : Request}
    {p : String × String} (h : s.Opens w r p) (hname : Cookie.IsName s.gateway.cookieName)
    (hid : IsSessionId w.freshSession) : p = (s.gateway.cookieName, w.freshSession) := by
  obtain ⟨v, -, hv, hread⟩ := h.cookie
  rw [HeaderValue.cookie?_session hname hid hv] at hread
  exact (Option.some.inj hread).symm

/-- **When a cookie that is sent back brings the session back.**  A browser opens a session, reads a
    name and a value from the session cookie, and sends them back later, among whatever other
    cookies, while the session lasts and whatever else happens in between.  This request gets the
    session that was opened, and no new one, exactly if the name of the cookie is one that is read
    as it was written and the field with the cookie is plain text.  Otherwise it gets a new
    session. -/
theorem session_resumed_iff (router : Router) (settings : Settings) (localPort : Nat)
    (before between : List ServerEvent) (w w' : Surroundings) (r r' : Request)
    (p : String × String) (hid : IsSessionId w.freshSession)
    (hordered : (.request w r :: (between ++ [.request w' r'])).Pairwise (·.time ≤ ·.time)) :
    let s := (Server.new router settings localPort).run before
    let found := ((s.step (.request w r)).run between).gateway.found w' r'.headers
    s.Opens w r p → s.Lasts w r between w'.arrival → r'.headers.SendsBack p →
    (found.id = w.freshSession ∧ found.created = false ↔
      r'.headers.Readable settings.session.cookieName p) ∧
    (¬r'.headers.Readable settings.session.cookieName p →
      found = ⟨w'.freshSession, .fresh, true⟩) := by
  intro s found hopens hlasts hback
  have hname : s.gateway.cookieName = settings.session.cookieName := Server.run_cookieName _ before
  have hwritten : Cookie.IsName settings.session.cookieName →
      p = (settings.session.cookieName, w.freshSession) := by
    rw [← hname]
    exact fun hname' => hopens.eq_of_isName hname' hid
  have hfound : found = (((s.step (.request w r)).run between).gateway.sessions.resolve
      (r'.headers.requestCookie? settings.session.cookieName) w'.freshSession w'.arrival).2.1 := by
    have hlast : ((s.step (.request w r)).run between).gateway.cookieName =
        settings.session.cookieName := by
      rw [Server.run_cookieName, ← hname]
      exact Server.run_cookieName s [.request w r]
    rw [← hlast]
    rfl
  have hnew : ¬r'.headers.Readable settings.session.cookieName p →
      found = ⟨w'.freshSession, .fresh, true⟩ := by
    intro hnot
    have hnone := Headers.requestCookie?_of_not_readable hback
      (fun hname' => congrArg (·.1) (hwritten hname')) hnot
    rw [hfound, hnone]
    exact SessionStore.resolve_of_none rfl
  refine ⟨⟨fun hsame => ?_, fun hreadable => ?_⟩, hnew⟩
  · by_contra hnot
    rw [hnew hnot] at hsame
    exact Bool.noConfusion hsame.2
  · obtain rfl := hwritten hreadable.1
    obtain ⟨hfirst, hrest⟩ := List.pairwise_cons.mp hordered
    obtain ⟨hbetween, -, hlater⟩ := List.pairwise_append.mp hrest
    have hkeeps := hopens.keeps hlasts
      (Server.run_distinct (SessionStore.distinct_empty _ _) before)
      (fun e he => hfirst e (List.mem_append_left _ he)) hbetween
      (fun e he => hlater e he _ (List.mem_singleton.mpr rfl))
      (hfirst (.request w' r') (List.mem_append_right _ (List.mem_singleton.mpr rfl)))
    have hlimits : ((s.step (.request w r)).run between).gateway.sessions.limits =
        s.gateway.sessions.limits := (Server.run_limits _ between).trans Server.step_limits
    rw [hfound, Headers.requestCookie?_of_readable hback hreadable]
    refine hkeeps.resolve ?_ ?_
    · rw [hlimits]
      exact hlasts.lifetime
    · rw [hlimits]
      exact hlasts.idle

/-! ## A browser that comes back -/

namespace ComingBack

/-- Settings with a name for the session cookie. -/
def settings (name : String) : Settings := { session := { cookieName := name } }

def server (name : String) : Server := (Server.new ⟨none⟩ (settings name) 8080).run []

/-- What happens around a request at some second. -/
def surroundings (fresh : String) (second : Nat) : Surroundings :=
  { arrival := Duration.ofSeconds second, decided := Duration.ofSeconds second
    answered := Duration.ofSeconds second, date := 0
    freshSession := fresh, freshRequest := "q"
    identity := ⟨fun _ => .outOfTime, fun _ => some false⟩
    backend := fun _ => .abandoned }

/-- A request with some header fields. -/
def request (headers : Headers) : Request := ⟨.get, ⟨none, "", "/x"⟩, .http11, headers, .empty⟩

/-- Header fields with a cookie, next to one of somebody else. -/
def cookies (text : String) : Headers := ⟨[(.cookie, ⟨Bytes.ofText ("theme=dark; " ++ text)⟩)]⟩

end ComingBack

/-- Under the usual name the browser gets its session again. -/
theorem session_resumed_iff_usual :
    let w := ComingBack.surroundings "5e" 0
    let r := ComingBack.request .empty
    let back := ComingBack.request (ComingBack.cookies "gateway.session=5e")
    let between : List ServerEvent := [.request (ComingBack.surroundings "7c" 1) back]
    let s := ComingBack.server "gateway.session"
    s.Opens w r ("gateway.session", "5e") ∧
    s.Lasts w r between (ComingBack.surroundings "a0" 1800).arrival ∧
    back.headers.SendsBack ("gateway.session", "5e") ∧
    let found := ((s.step (.request w r)).run between).gateway.found
      (ComingBack.surroundings "a0" 1800) back.headers
    found.id = "5e" ∧ found.created = false := by
  intro w r back between s
  have hopens : s.Opens w r ("gateway.session", "5e") :=
    ⟨by decide +kernel, ⟨Bytes.ofText "gateway.session=5e; HttpOnly; Path=/"⟩, by decide +kernel,
      by decide +kernel, by decide +kernel⟩
  have hlasts : s.Lasts w r between (ComingBack.surroundings "a0" 1800).arrival := by
    refine ⟨?_, ⟨⟨by decide, fun _ => ?_⟩, trivial⟩, by decide +kernel, by decide +kernel⟩
    · unfold Server.LogsOut
      decide +kernel
    · unfold Server.LogsOut
      decide +kernel
  have hback : back.headers.SendsBack ("gateway.session", "5e") :=
    ⟨⟨_, List.mem_singleton.mpr rfl, by decide +kernel⟩, by decide +kernel⟩
  have hid : IsSessionId w.freshSession := by
    unfold IsSessionId
    decide +kernel
  have hname : Cookie.IsName "gateway.session" :=
    ⟨by decide, List.all_eq_true.mp (by decide +kernel), by decide +kernel, by decide +kernel,
      by decide +kernel⟩
  have hreadable : back.headers.Readable "gateway.session" ("gateway.session", "5e") :=
    ⟨hname, _, List.mem_singleton.mpr rfl, by decide +kernel, by decide +kernel⟩
  obtain ⟨hiff, -⟩ := session_resumed_iff ⟨none⟩ (ComingBack.settings "gateway.session") 8080 []
    between w (ComingBack.surroundings "a0" 1800) r back ("gateway.session", "5e") hid
    (by decide +kernel) hopens hlasts hback
  exact ⟨hopens, hlasts, hback, hiff.mpr hreadable⟩

/-- A name that ends with a blank is as valid as any other, and the browser that sends the cookie
    back under it gets a new session. -/
theorem session_resumed_blank :
    ¬∀ (router : Router) (settings : Settings) (localPort : Nat) (before between : List ServerEvent)
      (w w' : Surroundings) (r r' : Request) (p : String × String),
      settings.isValid = true → IsSessionId w.freshSession →
      (.request w r :: (between ++ [.request w' r'])).Pairwise (·.time ≤ ·.time) →
      let s := (Server.new router settings localPort).run before
      s.Opens w r p → s.Lasts w r between w'.arrival → r'.headers.SendsBack p →
      let found := ((s.step (.request w r)).run between).gateway.found w' r'.headers
      found.id = w.freshSession ∧ found.created = false := by
  intro h
  have hopens : (ComingBack.server "sid ").Opens (ComingBack.surroundings "5e" 0)
      (ComingBack.request .empty) ("sid", "5e") :=
    ⟨by decide +kernel, ⟨Bytes.ofText "sid =5e; HttpOnly; Path=/"⟩, by decide +kernel,
      by decide +kernel, by decide +kernel⟩
  have hlasts : (ComingBack.server "sid ").Lasts (ComingBack.surroundings "5e" 0)
      (ComingBack.request .empty) [] (ComingBack.surroundings "7c" 1).arrival := by
    refine ⟨?_, trivial, by decide +kernel, by decide +kernel⟩
    unfold Server.LogsOut
    decide +kernel
  have hback : (ComingBack.cookies "sid=5e").SendsBack ("sid", "5e") :=
    ⟨⟨_, List.mem_singleton.mpr rfl, by decide +kernel⟩, by decide +kernel⟩
  have hid : IsSessionId (ComingBack.surroundings "5e" 0).freshSession := by
    unfold IsSessionId
    decide +kernel
  have hsame := h ⟨none⟩ (ComingBack.settings "sid ") 8080 [] [] (ComingBack.surroundings "5e" 0)
    (ComingBack.surroundings "7c" 1) (ComingBack.request .empty)
    (ComingBack.request (ComingBack.cookies "sid=5e")) ("sid", "5e") (by decide +kernel) hid
    (by decide +kernel) hopens hlasts hback
  revert hsame
  decide +kernel

end AccessGateway

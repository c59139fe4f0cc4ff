import AccessGateway.Proofs.Relay.Propagation
import AccessGateway.Proofs.Session.Afterlife
import AccessGateway.Proofs.Session.ControlCookie
import AccessGateway.Proofs.Session.Replay

/-!
# Cookies on their way there and back

A cookie is read from an answer, stored, written into the `Cookie` field of later requests and read
there again.  What is stored never has a character that would cut a name or a value in two or be
forbidden in a field, so every cookie arrives as it was stored.

## Results

* `Harvest.cookies_harvestAll` — the jar of a session, read off the answers that were harvested.
* `Harvest.guarded_harvestAll` — all of it can be replayed.
* `Outbound.headers_replayed` — what a backend reads in the `Cookie` field.
* `replayed_cookies_read_back` — it reads what was stored.
-/

set_option autoImplicit false

namespace AccessGateway

/-! ## What harvests store -/

namespace Harvest

/-- The cookies in an answer, as they are stored. -/
def Answer.stored (a : Answer) : List Stored :=
  ((a.values.filter (!isReserved ·)).filterMap cookieOf?).map (Stored.ofCookie a.root)

/-- The cookies that were stored since the last end of the session. -/
def log (answers : List Answer) : List Stored := (late answers).flatMap Answer.stored

variable {s : Session} {answers : List Answer}

/-- Without an end, every answer adds its cookies to the jar. -/
theorem cookies_harvestAll_going (hgoing : ∀ a ∈ answers, endsSession a.values = false)
    {before : List Stored} (hs : s.cookies = .ofLog before) :
    (harvestAll s answers).cookies = .ofLog (before ++ answers.flatMap Answer.stored) := by
  unfold harvestAll
  induction answers generalizing s before with
  | nil => simpa using hs
  | cons a answers ih =>
    obtain ⟨ha, hrest⟩ := List.forall_mem_cons.mp hgoing
    have hfirst : (run s a.root a.values a.now).1.cookies = .ofLog (before ++ a.stored) := by
      rw [run_going s a.root a.values ha, Command.run_eq]
      dsimp only
      rw [hs, CookieJar.foldl_put]
      rfl
    rw [List.foldl_cons, ih hrest hfirst, List.append_assoc, List.flatMap_cons]

/-- **The jar of a session**, read off the answers since its last end. -/
theorem cookies_harvestAll (answers : List Answer) :
    (harvestAll .fresh answers).cookies = .ofLog (log answers) := by
  cases hends : answers.any (endsSession ·.values) with
  | true =>
    have hwiped : Session.fresh.destroy.cookies = .ofLog [] := rfl
    rw [harvestAll_ended hends]
    exact cookies_harvestAll_going late_going hwiped
  | false =>
    have hempty : Session.fresh.cookies = .ofLog [] := rfl
    unfold log
    rw [late_eq_self hends]
    refine cookies_harvestAll_going (fun a ha => ?_) hempty
    exact Bool.eq_false_iff.mpr (List.any_eq_false.mp hends a ha)

theorem guarded_harvestAll (hs : s.Guarded) (answers : List Answer) :
    (harvestAll s answers).Guarded := by
  unfold harvestAll
  induction answers generalizing s with
  | nil => exact hs
  | cons a answers ih =>
    exact ih ((Session.harvested_run s a.root a.values a.now).guarded hs)

end Harvest

/-! ## What backends read -/

/-- The cookies that a field with plain text gives. -/
theorem Headers.requestCookie?_of_values {h : Headers} {value : HeaderValue} {text : String}
    (hvalues : h.values .cookie = [value]) (htext : value.text? = some text) (name : String) :
    h.requestCookie? name = ((Cookie.split text).find? (·.1 = name)).map (·.2) := by
  unfold requestCookie?
  rw [hvalues, List.filterMap_cons_some htext, List.filterMap_nil, List.flatMap_singleton]

namespace Outbound

variable {s : Session} {path : String} (frontend working : Headers) (token : Option String)
  (settings : ProxySettings) (localPort : Nat)

/-- What a backend reads in the `Cookie` field of a session with anything to replay: in every part
    of it one cookie of the jar. -/
theorem headers_replayed (hs : s.Guarded) (hne : s.cookies.cookiesFor path ≠ []) :
    ∃ value text, s.cookies.headerFor path = some text ∧
      (headers frontend ⟨s.cookies.headerFor path, working, token⟩ settings localPort).values
        .cookie = [value] ∧
      value.text? = some text ∧
      (Text.fields ';' text.toList).map Cookie.pair? =
        (s.cookies.cookiesFor path).map some ∧
      Cookie.split text = s.cookies.cookiesFor path := by
  have hreplayable : ∀ p ∈ s.cookies.cookiesFor path, Harvest.Replayable p := hs.cookiesFor
  have hheader : s.cookies.headerFor path =
      some (Cookie.write (s.cookies.cookiesFor path)) := by
    rw [CookieJar.headerFor_eq, if_neg hne]
  have hchars := Harvest.isTextChar_write hreplayable
  have hown : own? frontend ⟨s.cookies.headerFor path, working, token⟩ settings .cookie =
      some ⟨Bytes.ofText (Cookie.write (s.cookies.cookiesFor path))⟩ := by
    rw [own?, if_pos rfl, hheader]
    exact HeaderValue.ofText?_eq_some hchars
  refine ⟨_, _, hheader, ?_, HeaderValue.text?_ofText hchars, ?_, ?_⟩
  · rw [headers_values, hown]
    rfl
  · generalize s.cookies.cookiesFor path = pairs at hne hreplayable
    cases pairs with
    | nil => exact absurd rfl hne
    | cons p ps =>
      obtain ⟨hp, hps⟩ := List.forall_mem_cons.mp hreplayable
      exact Cookie.map_pair?_write hp.tame fun q hq => (hps q hq).tame
  · exact Cookie.split_write fun p hp => (hreplayable p hp).tame

/-- Without anything to replay, only a working header can stand in the `Cookie` field. -/
theorem headers_unreplayed (hs : s.cookies.cookiesFor path = []) :
    (headers frontend ⟨s.cookies.headerFor path, working, token⟩ settings localPort).values
      .cookie = (working.last? .cookie).toList := by
  have hheader : s.cookies.headerFor path = none := by
    rw [CookieJar.headerFor_eq, if_pos hs]
  have hown : own? frontend ⟨s.cookies.headerFor path, working, token⟩ settings .cookie =
      none := by
    rw [own?, if_pos rfl, hheader]
    rfl
  rw [headers_inherited hown rfl]
  exact inherited_of_not_copied rfl

end Outbound

/-- **Replayed cookies are read as they were stored.**  After any harvests let `stored` be the names
    and values that were stored since the last end of the session for the prefixes of a path, of
    each path and name the latest.  If there are any, then the backend gets them in one `Cookie`
    field that is plain text, each part between two `;` is one of them, in order, and looking up a
    name gives the first of its values.  Otherwise only a working header can stand there. -/
theorem replayed_cookies_read_back (answers : List Harvest.Answer) (path : String)
    (frontend working : Headers) (token : Option String) (settings : ProxySettings)
    (localPort : Nat) :
    let jar := (Harvest.harvestAll .fresh answers).cookies
    let stored := ((Stored.kept (Harvest.log answers)).filter fun c =>
      c.path.toList <+: path.toList).map fun c => (c.name, c.value)
    let out := Outbound.headers frontend ⟨jar.headerFor path, working, token⟩ settings localPort
    jar.cookiesFor path = stored ∧
    (stored ≠ [] →
      (∃ value text, jar.headerFor path = some text ∧ out.values .cookie = [value] ∧
        value.text? = some text ∧
        (Text.fields ';' text.toList).map Cookie.pair? = stored.map some ∧
        Cookie.split text = stored) ∧
      ∀ name, out.requestCookie? name = (stored.find? (·.1 = name)).map (·.2)) ∧
    (stored = [] → out.values .cookie = (working.last? .cookie).toList) := by
  intro jar stored out
  have hguarded : (Harvest.harvestAll .fresh answers).Guarded :=
    Harvest.guarded_harvestAll Session.guarded_fresh answers
  have hcookies : jar.cookiesFor path = stored := by
    have hjar : jar = .ofLog (Harvest.log answers) := Harvest.cookies_harvestAll answers
    rw [hjar]
    exact CookieJar.cookiesFor_ofLog _ path
  refine ⟨hcookies, fun hne => ?_, fun hnone => ?_⟩
  · obtain ⟨value, text, hheader, hvalues, htext, hparts, hsplit⟩ :=
      Outbound.headers_replayed frontend working token settings localPort hguarded
        (hcookies ▸ hne)
    refine ⟨⟨value, text, hheader, hvalues, htext, hcookies ▸ hparts, hsplit.trans hcookies⟩, ?_⟩
    intro name
    rw [Headers.requestCookie?_of_values hvalues htext, hsplit.trans hcookies]
  · exact Outbound.headers_unreplayed frontend working token settings localPort
      (hcookies.trans hnone)

example : (Harvest.harvestAll .fresh
    [⟨"/app", [⟨Bytes.ofText "id=\"a=b, c\" ; HttpOnly"⟩], 0⟩]).cookies.headerFor "/app/x" =
      some "id=\"a=b, c\"" := by
  decide +kernel

end AccessGateway

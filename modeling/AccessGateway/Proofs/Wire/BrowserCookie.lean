import AccessGateway.Gateway.SessionCookie
import AccessGateway.Proofs.Wire.CookieText
import AccessGateway.Relay.Outbound

/-!
# A browser's cookies

A browser takes the name and the value of a cookie from the part of a `Set-Cookie` field before the
first semicolon, and sends the two back in a `Cookie` field, among its other cookies.  The gateway
writes the name of its session cookie as it was set, and reads `Cookie` fields that are plain text
only.  So whether it reads what it wrote depends on the name, and on the cookies of others.

## Results

* `Cookie.IsName` — the names that are read as they were written.
* `HeaderValue.cookie?_session` — what a browser reads from the session cookie.
* `Headers.mem_of_requestCookie?`, `Headers.isName_of_requestCookie?` — what is read was sent, in
  plain text and under such a name.
* `Headers.requestCookie?_of_readable`, `Headers.requestCookie?_of_not_readable` — what is read of
  a cookie that a browser sends back.
-/

set_option autoImplicit false

namespace AccessGateway

/-! ## Names -/

/-- A name of plain text that stands before the first `=` of a cookie as a whole. -/
structure Cookie.IsName (name : String) : Prop where
  ne_empty : name ≠ ""
  plain : ∀ c ∈ name.toList, HeaderValue.isTextChar c = true
  equals : '=' ∉ name.toList
  semicolon : ';' ∉ name.toList
  trimmed : Text.trim name.toList = name.toList

/-- The form that ids of sessions have: small hexadecimal digits and hyphens. -/
def IsSessionId (id : String) : Prop := id.toList.all "0123456789abcdef-".toList.contains = true

/-- Such an id goes through cookies as it is. -/
theorem IsSessionId.plain {id : String} (h : IsSessionId id) :
    ∀ c ∈ id.toList, HeaderValue.isTextChar c = true ∧ c ≠ ';' ∧ Text.isBlank c = false := by
  have hall : "0123456789abcdef-".toList.all
      (fun c => HeaderValue.isTextChar c && c ≠ ';' && !Text.isBlank c) = true := by
    decide +kernel
  intro c hc
  have hmem := List.contains_iff_mem.mp (List.all_eq_true.mp h c hc)
  simpa [and_assoc] using List.all_eq_true.mp hall c hmem

namespace HeaderValue

/-- The cookies that a `Cookie` field holds, whatever its bytes. -/
def cookies (v : HeaderValue) : List (String × String) :=
  (Text.fields ';' v.latin1).filterMap Cookie.pair?

/-- The name and the value that a browser reads from a `Set-Cookie` field. -/
def cookie? (v : HeaderValue) : Option (String × String) :=
  Cookie.pair? (v.latin1.takeWhile (· ≠ ';'))

variable {v : HeaderValue} {name id : String}

theorem cookies_of_text? {text : String} (h : v.text? = some text) :
    Cookie.split text = v.cookies := by
  unfold cookies
  rw [(latin1_of_text? h).1]
  rfl

/-- **What a browser reads from the session cookie**: its name and the id. -/
theorem cookie?_session (hname : Cookie.IsName name) (hid : IsSessionId id)
    (hv : ofText? (BrowserCookie.session name id) = some v) : v.cookie? = some (name, id) := by
  have hchars := hid.plain
  have hplain : ∀ c ∈ (BrowserCookie.session name id).toList, isTextChar c = true := by
    intro c hc
    have hrest : "=; HttpOnly; Path=/".toList.all isTextChar = true := by decide +kernel
    rw [List.all_eq_true] at hrest
    simp only [BrowserCookie.session, String.toList_append, List.mem_append] at hc
    rcases hc with ((hc | hc) | hc) | hc
    · exact hname.plain c hc
    · exact hrest c (by simp_all)
    · exact (hchars c hc).1
    · exact hrest c (by simp_all)
  have htame : Cookie.Tame (name, id) :=
    { name_ne := by simpa using hname.ne_empty
      name_equals := hname.equals
      name_semicolon := hname.semicolon
      value_semicolon := fun hc => (hchars _ hc).2.1 rfl
      name_trimmed := hname.trimmed
      value_trimmed := Text.trim_eq_self (fun c hc => (hchars c (List.mem_of_head? hc)).2.2)
        fun c hc => (hchars c (List.mem_of_getLast? hc)).2.2 }
  rw [ofText?_eq_some hplain] at hv
  cases hv
  have htext : (BrowserCookie.session name id).toList =
      Cookie.pairText (name, id) ++ ';' :: " HttpOnly; Path=/".toList := by
    simp [BrowserCookie.session, Cookie.pairText]
  unfold cookie?
  rw [latin1_ofText fun c hc => lt_of_isTextChar (hplain c hc), htext,
    List.takeWhile_append_of_pos]
  · simpa [Cookie.pairText] using htame.pair? [] (by simp) (by simp)
  · intro c hc
    simpa using fun heq : c = ';' => htame.semicolon_notMem (heq ▸ hc)

end HeaderValue

/-! ## Sending back -/

namespace Headers

/-- A browser sends a cookie back, as its only one of that name, in one of its `Cookie` fields and
    among whatever other cookies. -/
structure SendsBack (h : Headers) (p : String × String) : Prop where
  holds : ∃ v ∈ h.values .cookie, p ∈ v.cookies
  only : ∀ v ∈ h.values .cookie, ∀ q ∈ v.cookies, q.1 = p.1 → q = p

variable {h : Headers} {p : String × String} {name value : String}

theorem mem_of_requestCookie? (hread : h.requestCookie? name = some value) :
    ∃ v ∈ h.values .cookie, v.text?.isSome = true ∧ (name, value) ∈ v.cookies := by
  unfold requestCookie? at hread
  obtain ⟨q, hq, rfl⟩ := Option.map_eq_some_iff.mp hread
  have hname : q.1 = name := by simpa using List.find?_some hq
  obtain ⟨text, htext, hmem⟩ := List.mem_flatMap.mp (List.mem_of_find?_eq_some hq)
  obtain ⟨v, hv, hplain⟩ := List.mem_filterMap.mp htext
  rw [HeaderValue.cookies_of_text? hplain] at hmem
  refine ⟨v, hv, by rw [hplain]; rfl, ?_⟩
  rw [← hname]
  exact hmem

/-- No other names are ever read. -/
theorem isName_of_requestCookie? (hread : h.requestCookie? name = some value) :
    Cookie.IsName name := by
  obtain ⟨v, -, hplain, hmem⟩ := mem_of_requestCookie? hread
  obtain ⟨text, htext⟩ := Option.isSome_iff_exists.mp hplain
  obtain ⟨hlatin, hchars⟩ := HeaderValue.latin1_of_text? htext
  obtain ⟨part, hpart, hpair⟩ := List.mem_filterMap.mp hmem
  obtain ⟨htame, hsub, -⟩ := Cookie.pair?_tame (Text.mem_fields hpart).1 hpair
  refine ⟨fun he => htame.name_ne (by simp [he]), fun c hc => ?_, htame.name_equals,
    htame.name_semicolon, htame.name_trimmed⟩
  refine hchars c ?_
  rw [← hlatin]
  exact (Text.mem_fields hpart).2 c (hsub c (List.mem_append_left _ hc))

/-- The gateway can read a cookie under a name: it is a name that is read as it was written, and a
    field that holds the cookie is plain text throughout. -/
def Readable (h : Headers) (name : String) (p : String × String) : Prop :=
  Cookie.IsName name ∧ ∃ v ∈ h.values .cookie, v.text?.isSome = true ∧ p ∈ v.cookies

/-- What a browser sends back is read, if it can be. -/
theorem requestCookie?_of_readable (hback : h.SendsBack (name, value))
    (hreadable : h.Readable name (name, value)) : h.requestCookie? name = some value := by
  obtain ⟨-, v, hv, hplain, hmem⟩ := hreadable
  obtain ⟨text, htext⟩ := Option.isSome_iff_exists.mp hplain
  have hread : (h.requestCookie? name).isSome = true := by
    unfold requestCookie?
    rw [Option.isSome_map, List.find?_isSome]
    refine ⟨(name, value), List.mem_flatMap.mpr ⟨text, List.mem_filterMap.mpr ⟨v, hv, htext⟩, ?_⟩,
      by simp⟩
    rw [HeaderValue.cookies_of_text? htext]
    exact hmem
  obtain ⟨other, hother⟩ := Option.isSome_iff_exists.mp hread
  obtain ⟨v', hv', -, hmem'⟩ := mem_of_requestCookie? hother
  cases hback.only v' hv' _ hmem' rfl
  exact hother

/-- Otherwise nothing is read, if it was written under this name. -/
theorem requestCookie?_of_not_readable (hback : h.SendsBack p)
    (hwritten : Cookie.IsName name → p.1 = name) (hnot : ¬h.Readable name p) :
    h.requestCookie? name = none := by
  rw [Option.eq_none_iff_forall_ne_some]
  intro value hread
  have hname := isName_of_requestCookie? hread
  obtain ⟨v, hv, hplain, hmem⟩ := mem_of_requestCookie? hread
  rw [hback.only v hv _ hmem (hwritten hname).symm] at hmem
  exact hnot ⟨hname, v, hv, hplain, hmem⟩

end Headers
end AccessGateway

import AccessGateway.Proofs.Session.Keeping
import AccessGateway.Proofs.Wire.CookieText

/-!
# The reserved cookie

A control cookie is meant for the gateway alone: it neither goes on to the browser nor into the jar.
The jar never gets one.  The browser gets those that are no plain text, since these are not read.

## Results

* `Harvest.isControl_iff` — which fields a harvest takes for control cookies.
* `Harvest.mem_forward`, `Harvest.leaks_iff` — which fields go on.
* `Harvest.replayable_of_storable`, `Session.Harvested.guarded` — what a jar holds, and that it can
  be replayed without a control cookie.
* `Session.Guarded.cookieField` — the `Cookie` field of a session can always be sent.
-/

set_option autoImplicit false

namespace AccessGateway

/-- A cookie with the reserved name. -/
def HeaderValue.IsControl (v : HeaderValue) : Prop :=
  Cookie.nameOf? v.latin1 = some Command.cookieName.toList

namespace Harvest

variable {v : HeaderValue} {values : List HeaderValue}

theorem classify_text {text : String} (h : v.text? = some text) :
    classify v = match Cookie.parse? text with
      | some c => if c.name = Command.cookieName then .control c.value else .regular text
      | none => .regular text := by
  cases hc : Cookie.parse? text <;> simp only [classify, h, hc]

theorem parse?_isControl {text : String} (h : v.text? = some text) :
    v.IsControl ↔ ∃ c, Cookie.parse? text = some c ∧ c.name = Command.cookieName := by
  have hpair := Cookie.parse?_pair text
  unfold HeaderValue.IsControl
  rw [(HeaderValue.latin1_of_text? h).1]
  constructor
  · intro hname
    obtain ⟨value, hv⟩ := Cookie.pair?_of_nameOf? hname (by decide)
    rw [hv] at hpair
    obtain ⟨c, hc, heq⟩ := Option.map_eq_some_iff.mp hpair
    refine ⟨c, hc, ?_⟩
    rw [String.ofList_toList] at heq
    exact congrArg (·.1) heq
  · rintro ⟨c, hc, hname⟩
    rw [hc, Option.map_some] at hpair
    rw [Cookie.nameOf?_of_pair? hpair.symm, hname]

/-- A harvest takes a field for a control cookie if it is one and plain text. -/
theorem isControl_iff : isControl v = true ↔ v.text?.isSome = true ∧ v.IsControl := by
  cases ht : v.text? with
  | none => simp [isControl, classify, ht]
  | some text =>
    rw [parse?_isControl ht]
    unfold isControl
    rw [classify_text ht]
    cases hc : Cookie.parse? text with
    | none => simp
    | some c =>
      by_cases hname : c.name = Command.cookieName
      · simp [hname]
      · simp [hname]

theorem regularOf?_eq_some {text : String} (h : regularOf? v = some text) :
    v.text? = some text ∧ ¬v.IsControl := by
  unfold regularOf? at h
  cases ht : v.text? with
  | none => simp [classify, ht] at h
  | some text' =>
    rw [classify_text ht] at h
    rw [parse?_isControl ht]
    cases hc : Cookie.parse? text' with
    | none =>
      rw [hc] at h
      cases h
      simp
    | some c =>
      rw [hc] at h
      by_cases hname : c.name = Command.cookieName
      · simp [hname] at h
      · simp only [if_neg hname] at h
        cases h
        simp [hname]

/-! ## What goes on -/

section Outcome

variable (s : Session) (root : String) (values : List HeaderValue) (now : Instant)

/-- Everything goes on but control cookies in plain text. -/
theorem mem_forward :
    v ∈ (run s root values now).2.forward ↔
      v ∈ values ∧ (v.IsControl → v.text? = none) := by
  rw [run_forward, List.mem_filter, Bool.not_eq_true', ← Bool.not_eq_true, isControl_iff]
  simp only [not_and, Option.isSome_iff_ne_none]
  exact and_congr_right fun _ => ⟨fun h hc => by_contra fun hn => h hn hc, fun h hn hc => hn (h hc)⟩

/-- **Control cookies leak exactly if they are no plain text.** -/
theorem leaks_iff :
    (∃ v ∈ (run s root values now).2.forward, v.IsControl) ↔
      ∃ v ∈ values, v.IsControl ∧ v.text? = none := by
  simp only [mem_forward]
  constructor
  · rintro ⟨v, ⟨hv, hplain⟩, hc⟩
    exact ⟨v, hv, hc, hplain hc⟩
  · rintro ⟨v, hv, hc, hplain⟩
    exact ⟨v, ⟨hv, fun _ => hplain⟩, hc⟩

end Outcome

/-! ## What is stored -/

/-- A name and a value that can be replayed: in plain text, read again unchanged, and without the
    reserved name. -/
structure Replayable (p : String × String) : Prop where
  tame : Cookie.Tame p
  name_text : ∀ c ∈ p.1.toList, HeaderValue.isTextChar c = true
  value_text : ∀ c ∈ p.2.toList, HeaderValue.isTextChar c = true
  name_ne : p.1 ≠ Command.cookieName

/-- Whatever may go into a jar can be replayed. -/
theorem replayable_of_storable {p : String × String} (h : p ∈ storable values) :
    Replayable p := by
  obtain ⟨text, htext, hp⟩ := List.mem_filterMap.mp h
  obtain ⟨v, -, hv⟩ := List.mem_filterMap.mp htext
  obtain ⟨ht, hcontrol⟩ := regularOf?_eq_some hv
  obtain ⟨c, hc, rfl⟩ := Option.map_eq_some_iff.mp hp
  have hpair := Cookie.parse?_pair text
  rw [hc, Option.map_some] at hpair
  obtain ⟨htame, hmem, -⟩ := Cookie.pair?_tame Text.notMem_takeWhile hpair.symm
  have hchars : ∀ x ∈ c.name.toList ++ c.value.toList, HeaderValue.isTextChar x = true := by
    intro x hx
    have hx' := (List.takeWhile_prefix _).subset (hmem x hx)
    exact (HeaderValue.latin1_of_text? ht).2 x hx'
  refine ⟨htame, fun x hx => hchars x (List.mem_append_left _ hx),
    fun x hx => hchars x (List.mem_append_right _ hx), fun hname => ?_⟩
  exact hcontrol ((parse?_isControl ht).mpr ⟨c, hc, hname⟩)

theorem isTextChar_write {pairs : List (String × String)} (h : ∀ p ∈ pairs, Replayable p) :
    ∀ c ∈ (Cookie.write pairs).toList, HeaderValue.isTextChar c = true := by
  intro c hc
  rcases Cookie.mem_write hc with rfl | rfl | ⟨p, hp, hc⟩
  · decide
  · decide
  · unfold Cookie.pairText at hc
    rw [String.toList_append, String.toList_append] at hc
    rcases List.mem_append.mp hc with hc | hc
    · rcases List.mem_append.mp hc with hc | hc
      · exact (h p hp).name_text c hc
      · rw [List.mem_singleton.mp hc]
        decide
    · exact (h p hp).value_text c hc

end Harvest

/-! ## Sessions -/

/-- What a session keeps for others has no control cookie in it. -/
structure Session.Guarded (s : Session) : Prop where
  cookies : ∀ p ∈ s.cookies.pairs, Harvest.Replayable p
  headers : ∀ e ∈ s.headers.entries, e.1 = .authorization

namespace Session

theorem guarded_fresh : Session.fresh.Guarded := by
  refine ⟨fun p hp => ?_, fun e he => ?_⟩
  · cases hp
  · cases he

variable {s : Session} {path : String}

/-- All that goes out with a path can be replayed. -/
theorem Guarded.cookiesFor (hs : s.Guarded) :
    ∀ p ∈ s.cookies.cookiesFor path, Harvest.Replayable p := by
  intro p hp
  obtain ⟨shelf, hshelf, hp⟩ := List.mem_flatMap.mp hp
  exact hs.cookies p (List.mem_flatMap.mpr ⟨shelf, (List.mem_filter.mp hshelf).1, hp⟩)

/-- It can always stand in a header field. -/
theorem Guarded.cookieField (hs : s.Guarded) :
    (s.cookies.headerFor path).bind HeaderValue.ofText? =
      (s.cookies.headerFor path).map fun text => ⟨Bytes.ofText text⟩ := by
  rw [CookieJar.headerFor_eq]
  split
  · rfl
  · exact HeaderValue.ofText?_eq_some (Harvest.isTextChar_write hs.cookiesFor)

theorem Harvested.guarded {s t : Session} {values : List HeaderValue}
    (h : s.Harvested t values) (hs : s.Guarded) : t.Guarded := by
  refine ⟨fun p hp => ?_, fun e he => ?_⟩
  · rcases h.cookies p hp with hp | hp
    · exact hs.cookies p hp
    · exact Harvest.replayable_of_storable hp
  · rcases h.headers with heq | heq
    · rw [heq] at he
      exact hs.headers e he
    · rw [heq] at he
      cases he

end Session
end AccessGateway

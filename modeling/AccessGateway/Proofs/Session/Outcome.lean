import AccessGateway.Proofs.Session.Harvesting

/-!
# The outcome of a harvest

A harvest takes the fields of an answer one at a time.  What comes of them can be said of all of
them at once: the control cookies among them make one row of commands, the others go on and are
stored after the last command, and a command that ends the session undoes all of it.

## Results

* `CookieJar.storeAll_eq` — storing a row of fields puts its cookies into the jar one by one.
* `Harvest.isControl_eq`, `commands_eq`, `cookiesIn_eq` — what a row of fields holds, read off the
  cookies in it.
* `Harvest.run_going`, `Harvest.run_stored` — what becomes of a session that goes on, and how many
  cookies it gets.
* `harvest_outcome` — the whole outcome.
-/

set_option autoImplicit false

namespace AccessGateway

/-! ## Storing -/

namespace CookieJar

variable {jar : CookieJar} {root : String}

/-- A jar with a cookie under the path that the cookie says, or else under `root`. -/
def put (root : String) (jar : CookieJar) (c : Cookie) : CookieJar :=
  jar.insert ((c.path.filter (· ≠ "")).getD root) c.name c.value

theorem placeOf_eq (c : Cookie) : placeOf root c = (c.path.filter (· ≠ "")).getD root := by
  unfold placeOf
  cases c.path with
  | none => rfl
  | some p => by_cases hp : p = "" <;> simp [hp, Option.filter]

theorem storeAll_eq (fields : List String) :
    jar.storeAll root fields =
      ((fields.filterMap Cookie.parse?).foldl (put root) jar,
        (fields.filterMap Cookie.parse?).length) := by
  unfold storeAll
  -- the count begins anywhere, for the induction
  suffices h : ∀ n, fields.foldl _ (jar, n) =
      ((fields.filterMap Cookie.parse?).foldl (put root) jar,
        n + (fields.filterMap Cookie.parse?).length) by
    simpa using h 0
  induction fields generalizing jar with
  | nil => exact fun n => rfl
  | cons field fields ih =>
    intro n
    rw [List.foldl_cons, List.filterMap_cons]
    cases hc : Cookie.parse? field with
    | none =>
      have hstore : jar.store root field = (jar, none) := by simp only [store, hc]
      rw [hstore]
      exact ih n
    | some c =>
      have hstore : jar.store root field = (put root jar c, some c.name) := by
        simp only [store, hc, placeOf_eq, put]
      have hlength : n + ((fields.filterMap Cookie.parse?).length + 1) =
          n + 1 + (fields.filterMap Cookie.parse?).length := by omega
      rw [hstore, List.foldl_cons, List.length_cons, hlength]
      exact ih (n + 1)

end CookieJar

/-! ## What is in the fields -/

namespace Harvest

variable {now : Instant}

/-- The cookie in a field. -/
def cookieOf? (v : HeaderValue) : Option Cookie := v.text?.bind Cookie.parse?

/-- Whether a field reads as a cookie with the reserved name. -/
def isReserved (v : HeaderValue) : Bool := (cookieOf? v).any (·.name = Command.cookieName)

/-- The ways in which a field can be sorted, by the cookie in it. -/
theorem classify_cases (v : HeaderValue) :
    (isReserved v = false ∧ cookieOf? v = none ∧ classify v = .opaqueBytes) ∨
      (∃ text, isReserved v = false ∧ cookieOf? v = Cookie.parse? text ∧
        classify v = .regular text) ∨
      ∃ c, isReserved v = true ∧ cookieOf? v = some c ∧ classify v = .control c.value := by
  unfold isReserved cookieOf? classify
  cases v.text? with
  | none => exact .inl ⟨rfl, rfl, rfl⟩
  | some text =>
    cases hc : Cookie.parse? text with
    | none => exact .inr (.inl ⟨text, by simp [hc]⟩)
    | some c =>
      by_cases hname : c.name = Command.cookieName
      · exact .inr (.inr ⟨c, by simp [hc, hname]⟩)
      · exact .inr (.inl ⟨text, by simp [hc, hname]⟩)

theorem isControl_eq (v : HeaderValue) : isControl v = isReserved v := by
  unfold isControl
  rcases classify_cases v with ⟨hr, -, hv⟩ | ⟨text, hr, -, hv⟩ | ⟨c, hr, -, hv⟩ <;> rw [hr, hv]

/-- The commands in a row of fields. -/
theorem commands_eq (values : List HeaderValue) :
    commands values =
      ((values.filter isReserved).filterMap cookieOf?).flatMap (Command.parse ·.value) := by
  induction values with
  | nil => rfl
  | cons v values ih =>
    rw [commands_cons, ih, commandsOf]
    rcases classify_cases v with ⟨hr, -, hv⟩ | ⟨text, hr, -, hv⟩ | ⟨c, hr, hc, hv⟩
    · rw [hv, List.filter_cons_of_neg (by simp [hr])]
      rfl
    · rw [hv, List.filter_cons_of_neg (by simp [hr])]
      rfl
    · rw [hv, List.filter_cons_of_pos hr, List.filterMap_cons, hc, List.flatMap_cons]

/-- The cookies in a row of fields that a harvest may store. -/
theorem cookiesIn_eq (values : List HeaderValue) :
    (values.filterMap regularOf?).filterMap Cookie.parse? =
      (values.filter (!isReserved ·)).filterMap cookieOf? := by
  induction values with
  | nil => rfl
  | cons v values ih =>
    rw [List.filterMap_cons]
    rcases classify_cases v with ⟨hr, hc, hv⟩ | ⟨text, hr, hc, hv⟩ | ⟨c, hr, -, hv⟩
    · have hof : regularOf? v = none := by rw [regularOf?, hv]
      rw [hof, List.filter_cons_of_pos (by simp [hr]), List.filterMap_cons, hc]
      exact ih
    · have hof : regularOf? v = some text := by rw [regularOf?, hv]
      rw [hof, List.filter_cons_of_pos (by simp [hr]), List.filterMap_cons, List.filterMap_cons, hc,
        ih]
    · have hof : regularOf? v = none := by rw [regularOf?, hv]
      rw [hof, List.filter_cons_of_neg (by simp [hr])]
      exact ih

/-! ## The whole of it -/

section Outcome

variable (s : Session) (root : String) (values : List HeaderValue)

theorem run_stored :
    (run s root values now).2.stored =
      if endsSession values then 0
      else ((values.filter (!isReserved ·)).filterMap cookieOf?).length := by
  unfold run endsSession
  rw [foldl_going values rfl]
  dsimp only
  split
  · rfl
  · rw [List.nil_append, CookieJar.storeAll_eq, cookiesIn_eq]

theorem run_going (h : endsSession values = false) :
    (run s root values now).1 =
      { (Command.run s now (commands values)).1 with
        cookies := ((values.filter (!isReserved ·)).filterMap cookieOf?).foldl
          (CookieJar.put root) (Command.run s now (commands values)).1.cookies } := by
  rw [run_kept s root values h, CookieJar.storeAll_eq, cookiesIn_eq, Command.run_eq]

/-- What is not in the row of commands and in the row of fields to send on plays no part. -/
theorem run_congr {other : List HeaderValue}
    (hcontrols : other.filter isReserved = values.filter isReserved)
    (hrest : other.filter (!isReserved ·) = values.filter (!isReserved ·)) :
    run s root other now = run s root values now := by
  have hcommands : commands other = commands values := by rw [commands_eq, commands_eq, hcontrols]
  have hends : endsSession other = endsSession values := by rw [endsSession, hcommands, endsSession]
  have hforward : (run s root other now).2.forward = (run s root values now).2.forward := by
    rw [run_forward, run_forward]
    simpa only [isControl_eq] using hrest
  have hstored : (run s root other now).2.stored = (run s root values now).2.stored := by
    rw [run_stored, run_stored, hends, hrest]
  have hloggedOut : (run s root other now).2.loggedOut = (run s root values now).2.loggedOut := by
    rw [run_loggedOut, run_loggedOut, hends]
  have hsession : (run s root other now).1 = (run s root values now).1 := by
    cases he : endsSession values with
    | true => rw [run_ended s root values he, run_ended s root other (hends.trans he)]
    | false =>
      rw [run_going s root values he, run_going s root other (hends.trans he), hcommands, hrest]
  refine Prod.ext hsession ?_
  cases hout : (run s root other now).2
  cases hout' : (run s root values now).2
  rw [hout, hout'] at hforward hstored hloggedOut
  cases hforward
  cases hstored
  cases hloggedOut
  rfl

end Outcome

end Harvest

/-- **What a harvest comes to.**  All fields that are no control cookies go on as they are.  Without
    a command that ends the session, the commands of all control cookies are carried out in order,
    and then the other cookies are stored in order; with one, wherever it stands, nothing of the
    session remains.  How control cookies and others are mixed plays no part. -/
theorem harvest_outcome (s : Session) (root : String) (values : List HeaderValue)
    (now : Instant) :
    let controls := values.filter Harvest.isReserved
    let rest := values.filter (!Harvest.isReserved ·)
    let commands := (controls.filterMap Harvest.cookieOf?).flatMap (Command.parse ·.value)
    let cookies := rest.filterMap Harvest.cookieOf?
    let steered := (Command.run s now commands).1
    let out := Harvest.run s root values now
    out.2.forward = rest ∧
    ((∀ c ∈ commands, c.isEnd = false) →
      out.2.loggedOut = false ∧ out.2.stored = cookies.length ∧
        out.1 = { steered with
          cookies := cookies.foldl (fun jar c =>
            jar.insert ((c.path.filter (· ≠ "")).getD root) c.name c.value) steered.cookies }) ∧
    ((∃ c ∈ commands, c.isEnd = true) →
      out.2.loggedOut = true ∧ out.2.stored = 0 ∧ out.1 = ⟨[], none, .empty, .empty, [], true⟩) ∧
    ∀ other, other.filter Harvest.isReserved = controls →
      other.filter (!Harvest.isReserved ·) = rest → Harvest.run s root other now = out := by
  intro controls rest commands cookies steered out
  have hcommands : Harvest.commands values = commands := Harvest.commands_eq values
  refine ⟨?_, fun hgoing => ?_, fun hend => ?_, fun other hcontrols hrest =>
    Harvest.run_congr s root values hcontrols hrest⟩
  · rw [Harvest.run_forward]
    simp only [Harvest.isControl_eq]
    rfl
  · have hends : Harvest.endsSession values = false := by
      rw [Harvest.endsSession, hcommands, List.any_eq_false]
      exact fun c hc => Bool.eq_false_iff.mp (hgoing c hc)
    refine ⟨(Harvest.run_loggedOut s root values).trans hends, ?_, ?_⟩
    · rw [Harvest.run_stored, hends]
      rfl
    · rw [Harvest.run_going s root values hends, hcommands]
      rfl
  · have hends : Harvest.endsSession values = true := by
      rw [Harvest.endsSession, hcommands, List.any_eq_true]
      exact hend
    refine ⟨(Harvest.run_loggedOut s root values).trans hends, ?_, ?_⟩
    · rw [Harvest.run_stored, hends]
      rfl
    · exact Harvest.run_ended s root values hends

end AccessGateway

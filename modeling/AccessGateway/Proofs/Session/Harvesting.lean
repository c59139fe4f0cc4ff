import AccessGateway.Session.Harvest

/-!
# What a harvest comes to

`Harvest.run` goes through the `Set-Cookie` fields of an answer one by one.  Here its outcome is
given by three rows that are read off the fields beforehand: the commands of the control cookies,
the other texts, and the fields to send on.  How control cookies and others are mixed plays no part.

## Results

* `Command.run_append`, `Command.run_snd` — a row of commands is carried out up to the first one
  that ends the session.
* `Command.run_eq` — commands change roles and audit token only; `Command.run_roles` — the roles
  afterwards depend on the roles before and on nothing else.
* `Harvest.run_forward`, `Harvest.run_loggedOut`, `Harvest.run_ended`, `Harvest.run_kept` — the
  outcome of a harvest, read off these rows.
* `Harvest.run_roles` — which roles a harvest leaves depends on the roles before it only.
-/

set_option autoImplicit false

namespace AccessGateway

/-! ## Commands -/

namespace Command

/-- A command that ends the session. -/
def isEnd : Command → Bool
  | .endSession _ => true
  | _ => false

/-- A command that takes all roles away before it grants some. -/
def resets : Command → Bool
  | .setCredentials _ => true
  | _ => false

theorem run_append (s : Session) (now : Instant) (cs ds : List Command) :
    run s now (cs ++ ds) =
      if (run s now cs).2 = true then run s now cs else run (run s now cs).1 now ds := by
  induction cs generalizing s with
  | nil => rfl
  | cons c cs ih =>
    cases c with
    | addCredentials roles => exact ih _
    | setCredentials roles => exact ih _
    | auditToken token => exact ih _
    | endSession reason => rfl

/-- The session is ended exactly if some command says so. -/
theorem run_snd (s : Session) (now : Instant) (cs : List Command) :
    (run s now cs).2 = cs.any isEnd := by
  induction cs generalizing s with
  | nil => rfl
  | cons c cs ih =>
    cases c with
    | addCredentials roles => exact ih _
    | setCredentials roles => exact ih _
    | auditToken token => exact ih _
    | endSession reason => rfl

theorem addRoles_eq (s : Session) (rs : List Role) :
    s.addRoles rs = { s with roles := (s.addRoles rs).roles } := by
  unfold Session.addRoles
  induction rs generalizing s with
  | nil => rfl
  | cons r rs ih =>
    rw [List.foldl_cons, ih]
    rfl

/-- Commands change roles and audit token, and nothing else. -/
theorem run_eq (s : Session) (now : Instant) (cs : List Command) :
    (run s now cs).1 =
      { s with roles := (run s now cs).1.roles, auditToken := (run s now cs).1.auditToken } := by
  induction cs generalizing s with
  | nil => rfl
  | cons c cs ih =>
    cases c with
    | addCredentials roles =>
      rw [run, ih, addRoles_eq]
    | setCredentials roles =>
      rw [run, ih, addRoles_eq]
      rfl
    | auditToken token =>
      rw [run, ih]
    | endSession reason => rfl

theorem addRoles_roles {s t : Session} (h : s.roles = t.roles) (rs : List Role) :
    (s.addRoles rs).roles = (t.addRoles rs).roles := by
  unfold Session.addRoles
  induction rs generalizing s t with
  | nil => exact h
  | cons r rs ih =>
    refine ih ?_
    simp only [Session.addRole, h]

/-- The roles after commands depend on the roles before them only. -/
theorem run_roles {s t : Session} (h : s.roles = t.roles) (now : Instant) (cs : List Command) :
    (run s now cs).1.roles = (run t now cs).1.roles := by
  induction cs generalizing s t with
  | nil => exact h
  | cons c cs ih =>
    cases c with
    | addCredentials roles => exact ih (addRoles_roles h _)
    | setCredentials roles =>
      exact ih (addRoles_roles (s := s.clearRoles) (t := t.clearRoles) rfl _)
    | auditToken token => exact ih h
    | endSession reason => exact h

end Command

/-! ## Harvests -/

namespace Harvest

variable {now : Instant}

/-- Whether a field is a control cookie. -/
def isControl (v : HeaderValue) : Bool :=
  match classify v with
  | .control _ => true
  | _ => false

/-- The commands of a field; none if it is no control cookie. -/
def commandsOf (v : HeaderValue) : List Command :=
  match classify v with
  | .control value => Command.parse value
  | _ => []

/-- The text of a field to be stored. -/
def regularOf? (v : HeaderValue) : Option String :=
  match classify v with
  | .regular text => some text
  | _ => none

/-- The commands of all control cookies in order. -/
def commands (values : List HeaderValue) : List Command := values.flatMap commandsOf

theorem commands_cons (v : HeaderValue) (vs : List HeaderValue) :
    commands (v :: vs) = commandsOf v ++ commands vs := rfl

/-- After the end of the session fields are only sorted. -/
theorem foldl_ended (values : List HeaderValue) {p : Progress} (h : p.loggedOut = true) :
    values.foldl (Progress.step now) p =
      { p with
        forward := p.forward ++ values.filter (!isControl ·)
        regular := p.regular ++ values.filterMap regularOf? } := by
  induction values generalizing p with
  | nil => simp
  | cons v values ih =>
    rw [List.foldl_cons]
    cases hv : classify v with
    | opaqueBytes =>
      have hstep : Progress.step now p v = { p with forward := p.forward ++ [v] } := by
        simp only [Progress.step, hv]
      rw [hstep, ih]
      · simp [isControl, regularOf?, hv]
      · exact h
    | control value =>
      have hstep : Progress.step now p v = p := by
        simp only [Progress.step, hv, h, if_true]
      rw [hstep, ih]
      · simp [isControl, regularOf?, hv]
      · exact h
    | regular text =>
      have hstep : Progress.step now p v =
          { p with forward := p.forward ++ [v], regular := p.regular ++ [text] } := by
        simp only [Progress.step, hv]
      rw [hstep, ih]
      · simp [isControl, regularOf?, hv]
      · exact h

/-- What the fields gone through come to while no command has ended the session yet. -/
theorem foldl_going (values : List HeaderValue) {p : Progress} (h : p.loggedOut = false) :
    values.foldl (Progress.step now) p =
      { session :=
          if (commands values).any Command.isEnd then p.session.destroy
          else (Command.run p.session now (commands values)).1
        forward := p.forward ++ values.filter (!isControl ·)
        regular := p.regular ++ values.filterMap regularOf?
        loggedOut := (commands values).any Command.isEnd } := by
  induction values generalizing p with
  | nil =>
    cases p
    simp_all [commands, Command.run]
  | cons v values ih =>
    rw [List.foldl_cons, commands_cons]
    cases hv : classify v with
    | opaqueBytes =>
      have hstep : Progress.step now p v = { p with forward := p.forward ++ [v] } := by
        simp only [Progress.step, hv]
      rw [hstep, ih]
      · simp [isControl, regularOf?, commandsOf, hv]
      · exact h
    | regular text =>
      have hstep : Progress.step now p v =
          { p with forward := p.forward ++ [v], regular := p.regular ++ [text] } := by
        simp only [Progress.step, hv]
      rw [hstep, ih]
      · simp [isControl, regularOf?, commandsOf, hv]
      · exact h
    | control value =>
      have hof : commandsOf v = Command.parse value := by simp only [commandsOf, hv]
      rw [hof]
      rcases hrun : Command.run p.session now (Command.parse value) with ⟨s, ended⟩
      have hend : (Command.parse value).any Command.isEnd = ended := by
        rw [← Command.run_snd p.session now, hrun]
      cases ended with
      | true =>
        have hstep : Progress.step now p v =
            { p with session := s.destroy, loggedOut := true } := by
          simp only [Progress.step, hv, h, hrun]
          rfl
        -- the session is gone, and the rest of the fields cannot bring it back
        rw [hstep, foldl_ended values rfl]
        simp [isControl, regularOf?, hv, hend, Session.destroy]
      | false =>
        have hstep : Progress.step now p v = { p with session := s } := by
          simp only [Progress.step, hv, h, hrun]
          rfl
        have happ := Command.run_append p.session now (Command.parse value) (commands values)
        rw [hrun] at happ
        rw [hstep, ih]
        · simp [isControl, regularOf?, hv, hend, happ, Session.destroy]
        · exact h

/-- Whether a command in the fields ends the session. -/
def endsSession (values : List HeaderValue) : Bool := (commands values).any Command.isEnd

theorem endsSession_nil : endsSession [] = false := rfl

theorem endsSession_append (values more : List HeaderValue) :
    endsSession (values ++ more) = (endsSession values || endsSession more) := by
  simp [endsSession, commands]

/-- A session that some fields end is ended whatever comes along with them. -/
theorem endsSession_of_subset {values more : List HeaderValue} (h : values ⊆ more)
    (hends : endsSession values = true) : endsSession more = true := by
  unfold endsSession commands at hends ⊢
  obtain ⟨command, hcommand, hend⟩ := List.any_eq_true.mp hends
  obtain ⟨v, hv, hcommand⟩ := List.mem_flatMap.mp hcommand
  exact List.any_eq_true.mpr ⟨command, List.mem_flatMap.mpr ⟨v, h hv, hcommand⟩, hend⟩

section Outcome

variable (s : Session) (root : String) (values : List HeaderValue)

theorem run_forward : (run s root values now).2.forward = values.filter (!isControl ·) := by
  unfold run
  rw [foldl_going values rfl]
  dsimp only
  split <;> rfl

theorem run_loggedOut : (run s root values now).2.loggedOut = endsSession values := by
  unfold run endsSession
  rw [foldl_going values rfl]
  dsimp only
  split
  · rename_i h
    exact h.symm
  · rename_i h
    exact (Bool.eq_false_iff.mpr h).symm

/-- A session that a command ended has lost everything. -/
theorem run_ended (h : endsSession values = true) :
    (run s root values now).1 = s.destroy := by
  unfold endsSession at h
  unfold run
  rw [foldl_going values rfl]
  simp only [h, if_true]

/-- A session that goes on has new roles, a new audit token and new cookies at most. -/
theorem run_kept (h : endsSession values = false) :
    (run s root values now).1 =
      { s with
        roles := (Command.run s now (commands values)).1.roles
        auditToken := (Command.run s now (commands values)).1.auditToken
        cookies := (s.cookies.storeAll root (values.filterMap regularOf?)).1 } := by
  unfold endsSession at h
  unfold run
  rw [foldl_going values rfl]
  simp only [h, Bool.false_eq_true, if_false]
  rw [Command.run_eq]
  rfl

theorem run_destroyed (h : s.destroyed = false) :
    (run s root values now).1.destroyed = endsSession values := by
  cases he : endsSession values with
  | true => rw [run_ended s root values he, Session.destroy]
  | false =>
    rw [run_kept s root values he]
    exact h

/-- The header fields that a session keeps are kept or lost, but none is added. -/
theorem run_headers :
    (run s root values now).1.headers = s.headers ∨ (run s root values now).1.headers = .empty := by
  cases he : endsSession values with
  | true =>
    rw [run_ended s root values he]
    exact .inr rfl
  | false =>
    rw [run_kept s root values he]
    exact .inl rfl

end Outcome

/-- Which roles a harvest leaves depends on the roles before it and on nothing else that the session
    keeps. -/
theorem run_roles {s t : Session} (h : s.roles = t.roles) (root root' : String)
    (values : List HeaderValue) :
    (run s root values now).1.roles = (run t root' values now).1.roles := by
  cases he : endsSession values with
  | true =>
    rw [run_ended s root values he, run_ended t root' values he]
    rfl
  | false =>
    rw [run_kept s root values he, run_kept t root' values he]
    exact Command.run_roles h now _

end Harvest
end AccessGateway

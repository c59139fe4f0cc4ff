import AccessGateway.Proofs.Session.CommandEffect
import AccessGateway.Proofs.Session.Granting
import AccessGateway.Proofs.Session.Outcome

/-!
# After the end of a session

A command that ends a session stops the commands of the same answer, but the end is not looked for
when the next answer is harvested.  So a destroyed session takes new roles, a new audit token and
new cookies from later answers; what it has then came after the last command that ended it.

## Results

* `Command.run_roles_ne`, `run_auditToken_eq_none`, `CookieJar.foldl_put_eq_empty` — when nothing is
  left after a row of commands, and when a jar stays empty.
* `Harvest.harvestAll_late` — only what comes after the last end counts.
* `destroyed_keeps_nothing_iff` — what a destroyed session has after any row of harvests.
* `destroyed_takes_commands` — a destroyed session that is granted a role.
-/

set_option autoImplicit false

namespace AccessGateway

/-! ## What a row of commands leaves -/

namespace Command

variable {s : Session} {now : Instant} {c : Command} {cs ds : List Command}

/-- A command with at least one role to grant; the instant of the grant has no part in that. -/
def bestows : Command → Bool
  | .addCredentials roles | .setCredentials roles => !(Role.parseList roles 0).isEmpty
  | _ => false

/-- Some role is granted and not taken away by a later command. -/
def LeaveRoles (cs : List Command) : Prop :=
  ∃ before c after, cs = before ++ c :: after ∧ c.bestows = true ∧ ∀ d ∈ after, d.resets = false

theorem leaveRoles_cons :
    LeaveRoles (c :: cs) ↔ LeaveRoles cs ∨ c.bestows = true ∧ ∀ d ∈ cs, d.resets = false := by
  constructor
  · rintro ⟨before, d, after, hsplit, hd, hafter⟩
    cases before with
    | nil =>
      obtain ⟨rfl, rfl⟩ := List.cons.inj hsplit
      exact .inr ⟨hd, hafter⟩
    | cons e before => exact .inl ⟨before, d, after, (List.cons.inj hsplit).2, hd, hafter⟩
  · rintro (⟨before, d, after, rfl, hd, hafter⟩ | ⟨hc, hcs⟩)
    · exact ⟨c :: before, d, after, rfl, hd, hafter⟩
    · exact ⟨[], c, cs, rfl, hc, hcs⟩

theorem not_leaveRoles_nil : ¬LeaveRoles [] := by
  rintro ⟨before, c, after, hsplit, -⟩
  simp at hsplit

theorem leaveRoles_append :
    LeaveRoles (cs ++ ds) ↔ LeaveRoles ds ∨ LeaveRoles cs ∧ ∀ d ∈ ds, d.resets = false := by
  induction cs with
  | nil => simp [not_leaveRoles_nil]
  | cons c cs ih =>
    rw [List.cons_append, leaveRoles_cons, leaveRoles_cons, ih, List.forall_mem_append]
    grind

theorem addRoles_ne {rs : List Role} : (s.addRoles rs).roles ≠ [] ↔ s.roles ≠ [] ∨ rs ≠ [] := by
  unfold Session.addRoles
  induction rs generalizing s with
  | nil => simp
  | cons r rs ih =>
    rw [List.foldl_cons, ih]
    simp [Session.addRole]

theorem parseList_ne (roles : String) (now : Instant) :
    Role.parseList roles now ≠ [] ↔ (!(Role.parseList roles 0).isEmpty) = true := by
  rw [Role.parseList_grantedAt 0 now]
  simp

/-- A session has roles after commands if a granted one was not taken away, or if it had some and
    none was taken away. -/
theorem run_roles_ne (s : Session) (now : Instant) (hgoing : cs.any isEnd = false) :
    (run s now cs).1.roles ≠ [] ↔
      LeaveRoles cs ∨ s.roles ≠ [] ∧ ∀ d ∈ cs, d.resets = false := by
  induction cs generalizing s with
  | nil => simp [run, not_leaveRoles_nil]
  | cons c cs ih =>
    rw [List.any_cons, Bool.or_eq_false_iff] at hgoing
    rw [leaveRoles_cons, List.forall_mem_cons]
    cases c with
    | addCredentials roles =>
      rw [run, ih _ hgoing.2, addRoles_ne, parseList_ne]
      grind [bestows, resets]
    | setCredentials roles =>
      rw [run, ih _ hgoing.2, addRoles_ne, parseList_ne]
      grind [bestows, resets, Session.clearRoles]
    | auditToken token =>
      rw [run, ih _ hgoing.2]
      grind [bestows, resets]
    | endSession reason => cases hgoing.1

theorem run_auditToken_eq_none (s : Session) (now : Instant) (hgoing : cs.any isEnd = false) :
    (run s now cs).1.auditToken = none ↔
      s.auditToken = none ∧ ∀ token, .auditToken token ∉ cs := by
  have htoken : (∀ c ∈ cs, token? c = none) ↔ ∀ token, .auditToken token ∉ cs := by
    constructor
    · intro hnone token hmem
      cases hnone _ hmem
    · intro hnot c hc
      cases c with
      | auditToken token => exact absurd hc (hnot token)
      | addCredentials roles => rfl
      | setCredentials roles => rfl
      | endSession reason => rfl
  rw [run_auditToken, carried_eq_self hgoing, Option.or_eq_none_iff, List.getLast?_eq_none_iff,
    List.filterMap_eq_nil_iff, htoken, and_comm]

end Command

namespace CookieJar

variable {jar : CookieJar} {root : String}

theorem put_ne_empty (c : Cookie) : put root jar c ≠ .empty := by
  intro h
  have hshelves := congrArg CookieJar.shelves h
  cases hj : jar.shelves with
  | nil => simp [put, insert, shelve, hj, empty] at hshelves
  | cons shelf shelves =>
    simp only [put, insert, shelve, hj, empty] at hshelves
    split at hshelves <;> cases hshelves

theorem foldl_put_eq_empty {cookies : List Cookie} :
    cookies.foldl (put root) jar = .empty ↔ jar = .empty ∧ cookies = [] := by
  induction cookies generalizing jar with
  | nil => simp
  | cons c cookies ih =>
    rw [List.foldl_cons, ih]
    simp [put_ne_empty]

end CookieJar

/-! ## A row of harvests -/

namespace Harvest

/-- An answer to harvest: the part of the site that it came for, its fields, and when it came. -/
structure Answer where
  root : String
  values : List HeaderValue
  now : Instant

/-- A session after harvests, one after the other. -/
def harvestAll (s : Session) (answers : List Answer) : Session :=
  answers.foldl (fun s a => (run s a.root a.values a.now).1) s

/-- The answers after the last one that ends the session. -/
def late : List Answer → List Answer
  | [] => []
  | a :: answers => if (a :: answers).any (endsSession ·.values) then late answers else a :: answers

variable {s : Session} {answers : List Answer}

theorem late_going : ∀ a ∈ late answers, endsSession a.values = false := by
  induction answers with
  | nil =>
    intro a ha
    cases ha
  | cons a answers ih =>
    unfold late
    split
    · exact ih
    · rename_i hgoing
      simpa using hgoing

theorem late_eq_self (hgoing : answers.any (endsSession ·.values) = false) :
    late answers = answers := by
  cases answers with
  | nil => rfl
  | cons a answers => exact if_neg (Bool.eq_false_iff.mp hgoing)

/-- The end of a session wipes out all that was before it. -/
theorem harvestAll_ended (hends : answers.any (endsSession ·.values) = true) :
    harvestAll s answers = harvestAll s.destroy (late answers) := by
  induction answers generalizing s with
  | nil => cases hends
  | cons a answers ih =>
    have hlate : late (a :: answers) = late answers := if_pos hends
    rw [hlate]
    cases hrest : answers.any (endsSession ·.values) with
    | true => exact ih hrest
    | false =>
      have ha : endsSession a.values = true := by simpa [hrest] using hends
      unfold harvestAll
      rw [late_eq_self hrest, List.foldl_cons, run_ended s a.root a.values ha]

theorem harvestAll_late : harvestAll s.destroy answers = harvestAll s.destroy (late answers) := by
  cases hends : answers.any (endsSession ·.values) with
  | true => exact harvestAll_ended hends
  | false => rw [late_eq_self hends]

/-! ### Without an end -/

section Going

variable (hgoing : ∀ a ∈ answers, endsSession a.values = false)

include hgoing

/-- Harvests leave header fields, accesses and the mark of the end alone. -/
theorem harvestAll_rest :
    (harvestAll s answers).headers = s.headers ∧
      (harvestAll s answers).lastAccess = s.lastAccess ∧
      (harvestAll s answers).destroyed = s.destroyed := by
  unfold harvestAll
  induction answers generalizing s with
  | nil => exact ⟨rfl, rfl, rfl⟩
  | cons a answers ih =>
    obtain ⟨ha, hrest⟩ := List.forall_mem_cons.mp hgoing
    rw [List.foldl_cons, run_kept s a.root a.values ha]
    exact ih hrest

theorem harvestAll_roles :
    (harvestAll s answers).roles ≠ [] ↔
      Command.LeaveRoles (answers.flatMap (commands ·.values)) ∨
        s.roles ≠ [] ∧ ∀ d ∈ answers.flatMap (commands ·.values), d.resets = false := by
  unfold harvestAll
  induction answers generalizing s with
  | nil => simp [Command.not_leaveRoles_nil]
  | cons a answers ih =>
    obtain ⟨ha, hrest⟩ := List.forall_mem_cons.mp hgoing
    have hfirst := Command.run_roles_ne s a.now ha
    rw [List.foldl_cons, ih hrest, List.flatMap_cons, Command.leaveRoles_append,
      List.forall_mem_append, run_kept s a.root a.values ha, hfirst]
    grind

theorem harvestAll_auditToken :
    (harvestAll s answers).auditToken = none ↔
      s.auditToken = none ∧
        ∀ token, .auditToken token ∉ answers.flatMap (commands ·.values) := by
  unfold harvestAll
  induction answers generalizing s with
  | nil => simp
  | cons a answers ih =>
    obtain ⟨ha, hrest⟩ := List.forall_mem_cons.mp hgoing
    have hfirst := Command.run_auditToken_eq_none s a.now ha
    rw [List.foldl_cons, ih hrest, List.flatMap_cons, run_kept s a.root a.values ha, hfirst]
    simp only [List.mem_append, not_or, forall_and, and_assoc]

/-- A jar stays empty if no field has a cookie with another than the reserved name. -/
theorem harvestAll_cookies :
    (harvestAll s answers).cookies = .empty ↔
      s.cookies = .empty ∧ ∀ a ∈ answers, ∀ v ∈ a.values, ∀ c,
        cookieOf? v = some c → c.name = Command.cookieName := by
  unfold harvestAll
  induction answers generalizing s with
  | nil => simp
  | cons a answers ih =>
    obtain ⟨ha, hrest⟩ := List.forall_mem_cons.mp hgoing
    have hnone : (a.values.filter (!isReserved ·)).filterMap cookieOf? = [] ↔
        ∀ v ∈ a.values, ∀ c, cookieOf? v = some c → c.name = Command.cookieName := by
      rw [List.filterMap_eq_nil_iff]
      refine ⟨fun h v hv c hc => ?_, fun h v hv => ?_⟩
      · cases hplain : isReserved v with
        | true => simpa [isReserved, hc] using hplain
        | false =>
          have hno := h v (List.mem_filter.mpr ⟨hv, by simp [hplain]⟩)
          rw [hc] at hno
          cases hno
      · obtain ⟨hv, hplain⟩ := List.mem_filter.mp hv
        cases hc : cookieOf? v with
        | none => rfl
        | some c => simp [isReserved, hc, h v hv c hc] at hplain
    rw [List.foldl_cons, ih hrest, run_going s a.root a.values ha, CookieJar.foldl_put_eq_empty,
      hnone, List.forall_mem_cons, and_assoc, Command.run_eq]

end Going

end Harvest

/-- **What a destroyed session has after further harvests.**  The mark of its end stays, and header
    fields and accesses are gone for good.  Of the answers since the last one that ended it, it
    keeps a role if one was granted and not taken away again, an audit token if there was one, and a
    cookie if there was one besides the control cookies; otherwise it has none. -/
theorem destroyed_keeps_nothing_iff (s : Session) (answers : List Harvest.Answer) :
    let t := Harvest.harvestAll s.destroy answers
    let commands := (Harvest.late answers).flatMap (Harvest.commands ·.values)
    t.destroyed = true ∧ t.headers = .empty ∧ t.lastAccess = [] ∧
      (t.roles = [] ↔ ¬Command.LeaveRoles commands) ∧
      (t.auditToken = none ↔ ∀ token, .auditToken token ∉ commands) ∧
      (t.cookies = .empty ↔ ∀ a ∈ Harvest.late answers, ∀ v ∈ a.values, ∀ c,
        Harvest.cookieOf? v = some c → c.name = Command.cookieName) := by
  intro t commands
  have ht : t = Harvest.harvestAll s.destroy (Harvest.late answers) := Harvest.harvestAll_late
  have hgoing : ∀ a ∈ Harvest.late answers, Harvest.endsSession a.values = false :=
    Harvest.late_going
  rw [ht]
  obtain ⟨hheaders, haccess, hdestroyed⟩ := Harvest.harvestAll_rest (s := s.destroy) hgoing
  have hroles := Harvest.harvestAll_roles (s := s.destroy) hgoing
  refine ⟨hdestroyed, hheaders, haccess, ?_, ?_, ?_⟩
  · have hnone : s.destroy.roles = [] := rfl
    simp only [hnone, ne_eq, not_true_eq_false, false_and, or_false] at hroles
    exact Decidable.not_not.symm.trans (not_congr hroles)
  · refine (Harvest.harvestAll_auditToken hgoing).trans ?_
    simp [commands, Session.destroy, Session.fresh]
  · refine (Harvest.harvestAll_cookies hgoing).trans ?_
    simp [Session.destroy, Session.fresh]

/-- A destroyed session is granted a role by the next answer. -/
theorem destroyed_takes_commands :
    ¬∀ (s : Session) (answers : List Harvest.Answer),
      let t := Harvest.harvestAll s.destroy answers
      t.roles = [] ∧ t.auditToken = none ∧ t.cookies = .empty ∧ t.headers = .empty := by
  intro h
  obtain ⟨hroles, -⟩ :=
    h .fresh [⟨"/", [⟨Bytes.ofText "AL_CONTROL=ADD_CREDENTIALS%3Dadmin"⟩], 0⟩]
  have hnames := congrArg (List.map Role.name) hroles
  revert hnames
  decide +kernel

end AccessGateway

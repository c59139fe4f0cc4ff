import AccessGateway.Proofs.Access.Admission
import Mathlib.Data.List.Induction

/-!
# Roles over a history of checks

A check uses up nothing but time: it touches the first role that opens, and with that moves the end
of this role's idle time.  Which roles are still active at some instant therefore depends on all the
checks before it, of all mappings.  Here the history is kept as a record of the choices that checks
made, and the record alone, with the roles as they were at its start, says how the next check ends.

## Results

* `Session.useFirst_eq`, `RoleCall.run_roles`, `RoleCall.run_eq_true` — what one check does.
* `Role.Fits` — when a role opens, by the record; `Role.isActive_since` — that it is so.
* `after_roles` — the roles after a row of checks are those at its start, last used when the record
  says.
* `Session.Lapsed.step`, `Session.Lapsed.run` — what has lapsed stays so.
* `role_checks_follow_history` — all of this for a whole history.
-/

set_option autoImplicit false

namespace AccessGateway

/-! ## One check -/

namespace Session

/-- Using the first role of a kind, by its position. -/
theorem useFirst_eq (usable : Role → Bool) (now : Instant) (roles : List Role) :
    (useFirst usable now roles).map (·.2) =
      (roles.findIdx? usable).map fun i => roles.modify i (·.touch now) := by
  induction roles with
  | nil => rfl
  | cons r rs ih =>
    rw [useFirst, List.findIdx?_cons]
    split
    · rfl
    · have htail : ((useFirst usable now rs).map fun used => (used.1, r :: used.2)).map (·.2) =
          ((useFirst usable now rs).map (·.2)).map (r :: ·) := by
        rw [Option.map_map, Option.map_map]
        rfl
      rw [htail, ih, Option.map_map, Option.map_map]
      rfl

/-- The role is active and is one of `required`. -/
def usable (required : List String) (now : Instant) (r : Role) : Bool :=
  r.isActive now && required.contains r.name

/-- The roles after a use, if there is one. -/
theorem useAnyRole_roles (s : Session) (required : List String) (now : Instant) :
    (s.useAnyRole required now).map (·.2.roles) =
      (s.roles.findIdx? (usable required now)).map fun i => s.roles.modify i (·.touch now) := by
  rw [← useFirst_eq, useAnyRole, Option.map_map]
  rfl

end Session

/-- A check of roles: directly, or by a mapping. -/
inductive RoleCall where
  | use (required : List String)
  | check (m : Mapping)
deriving DecidableEq, Repr

namespace RoleCall

/-- The roles that open. -/
def required : RoleCall → List String
  | use required => required
  | check m => m.requiredRoles

/-- A mapping that requires no role is open to all. -/
def IsOpen : RoleCall → Prop
  | use _ => False
  | check m => m.requiredRoles = []

/-- Carries out a check; says whether it was successful. -/
def run (s : Session) (now : Instant) : RoleCall → Session × Bool
  | use required =>
    match s.useAnyRole required now with
    | some (_, s) => (s, true)
    | none => (s, false)
  | check m => m.checkRoles s now

/-- The position of the role that a check touches. -/
def touched? (s : Session) (now : Instant) (c : RoleCall) : Option Nat :=
  s.roles.findIdx? (Session.usable c.required now)

theorem run_roles (s : Session) (now : Instant) (c : RoleCall) :
    (c.run s now).1.roles =
      ((c.touched? s now).map fun i => s.roles.modify i (·.touch now)).getD s.roles := by
  cases c with
  | use required =>
    rw [touched?, RoleCall.required, ← Session.useAnyRole_roles, run]
    cases s.useAnyRole required now <;> rfl
  | check m =>
    have hnoted := Session.useAnyRole_roles (s.recordAccess m.contextRoot now) m.requiredRoles now
    have hsame : (s.recordAccess m.contextRoot now).roles = s.roles := rfl
    rw [hsame] at hnoted
    rw [touched?, RoleCall.required, ← hnoted, run, Mapping.checkRoles]
    split
    · rename_i hopen
      have hnone : (s.recordAccess m.contextRoot now).useAnyRole m.requiredRoles now = none := by
        rw [← Option.not_isSome_iff_eq_none, Session.useAnyRole_isSome, hopen]
        rintro ⟨r, -, -, hr⟩
        cases hr
      rw [hnone]
      rfl
    · split
      · rename_i hused
        rw [hused]
        rfl
      · rename_i hnone
        rw [hnone]
        rfl

theorem touched?_isSome {s : Session} {now : Instant} {c : RoleCall} :
    (c.touched? s now).isSome = true ↔ s.HoldsAny c.required now := by
  rw [touched?, List.findIdx?_isSome, List.any_eq_true, Session.HoldsAny]
  simp [Session.usable]

theorem run_eq_true {s : Session} {now : Instant} {c : RoleCall} :
    (c.run s now).2 = true ↔ c.IsOpen ∨ (c.touched? s now).isSome = true := by
  rw [touched?_isSome]
  cases c with
  | use required =>
    rw [← Session.useAnyRole_isSome, run, RoleCall.required, IsOpen, false_or]
    cases s.useAnyRole required now <;> simp
  | check m => exact Mapping.checkRoles_eq_true

end RoleCall

/-! ## The record of choices -/

/-- A check chose a role: when, and at which position. -/
structure Choice where
  instant : Instant
  position : Nat
deriving DecidableEq, Repr

namespace Role

/-- When a role was last chosen: by the record, and before that by itself.  A role that was never
    chosen counts from when it was issued. -/
def lastChosen (choices : List Choice) (i : Nat) (r : Role) : Instant :=
  ((choices.filter (·.position = i)).getLast?.map (·.instant)).getD r.lastUsed

/-- A role opens: it is one of those required, it was issued less than its lifetime ago, and issued
    or last chosen less than its idle timeout ago, if it has these. -/
def Fits (choices : List Choice) (now : Instant) (required : List String) (i : Nat) (r : Role) :
    Prop :=
  r.name ∈ required ∧ (∀ n ∈ r.lifetime, now < r.issuedAt + Duration.ofSeconds n) ∧
    ∀ n ∈ r.idleTimeout, now < r.lastChosen choices i + Duration.ofSeconds n

instance (choices : List Choice) (now : Instant) (required : List String) (i : Nat) (r : Role) :
    Decidable (r.Fits choices now required i) :=
  inferInstanceAs (Decidable (_ ∧ _ ∧ _))

/-- The role as the record leaves it. -/
def since (choices : List Choice) (i : Nat) (r : Role) : Role :=
  { r with lastUsed := r.lastChosen choices i }

theorem within_eq_true {limit : Option Nat} {start now : Instant} (h : start ≤ now) :
    within limit start now = true ↔ ∀ n ∈ limit, now < start + Duration.ofSeconds n := by
  cases limit with
  | none => simp [within]
  | some n =>
    simp only [within, decide_eq_true_eq, Option.mem_def, Option.some.injEq, forall_eq']
    exact Nat.sub_lt_iff_lt_add' h

/-- Activity is what the record says of it. -/
theorem isActive_since {choices : List Choice} {now : Instant} {required : List String} {i : Nat}
    {r : Role} (hissued : r.issuedAt ≤ now) (hchosen : r.lastChosen choices i ≤ now) :
    Session.usable required now (r.since choices i) = true ↔ r.Fits choices now required i := by
  have hlife : within (r.since choices i).lifetime (r.since choices i).issuedAt now = true ↔ _ :=
    within_eq_true hissued
  have hidle : within (r.since choices i).idleTimeout (r.since choices i).lastUsed now = true ↔ _ :=
    within_eq_true hchosen
  rw [Session.usable, isActive, Bool.and_eq_true, Bool.and_eq_true, hlife, hidle,
    List.contains_iff_mem]
  exact and_comm

end Role

/-- The position of the first role that opens, by the record. -/
def first? (roles : List Role) (choices : List Choice) (now : Instant) (required : List String) :
    Option Nat :=
  (roles.mapIdx fun i r => decide (r.Fits choices now required i)).findIdx? id

/-- What a check adds to the record: the first role that opens. -/
def chosen (roles : List Role) (choices : List Choice) (now : Instant) (c : RoleCall) :
    List Choice :=
  ((first? roles choices now c.required).map fun i => ⟨now, i⟩).toList

/-- The record of a row of checks. -/
def choicesOf (roles : List Role) (calls : List (Instant × RoleCall)) : List Choice :=
  calls.foldl (fun choices call => choices ++ chosen roles choices call.1 call.2) []

/-- The session after a row of checks. -/
def Session.after (s : Session) (calls : List (Instant × RoleCall)) : Session :=
  calls.foldl (fun s call => (call.2.run s call.1).1) s

theorem choicesOf_concat (roles : List Role) (calls : List (Instant × RoleCall))
    (call : Instant × RoleCall) :
    choicesOf roles (calls ++ [call]) =
      choicesOf roles calls ++ chosen roles (choicesOf roles calls) call.1 call.2 := by
  unfold choicesOf
  rw [List.foldl_append]
  rfl

theorem Session.after_concat (s : Session) (calls : List (Instant × RoleCall))
    (call : Instant × RoleCall) :
    s.after (calls ++ [call]) = (call.2.run (s.after calls) call.1).1 := by
  unfold after
  rw [List.foldl_append]
  rfl

/-- Choices are made at the instants of the checks. -/
theorem instant_mem_of_choicesOf {roles : List Role} {calls : List (Instant × RoleCall)}
    {choice : Choice} (h : choice ∈ choicesOf roles calls) :
    choice.instant ∈ calls.map (·.1) := by
  induction calls using List.reverseRecOn with
  | nil => cases h
  | append_singleton calls call ih =>
    rw [choicesOf_concat, List.mem_append] at h
    rw [List.map_append, List.mem_append]
    rcases h with h | h
    · exact .inl (ih h)
    · obtain ⟨i, -, rfl⟩ := Option.map_eq_some_iff.mp (Option.mem_toList.mp h)
      exact .inr List.mem_cons_self

/-! ## The record and the roles -/

section Record

variable {roles : List Role} {choices : List Choice} {now : Instant}

theorem Role.lastChosen_concat (choices : List Choice) (now : Instant) (i j : Nat) (r : Role) :
    r.lastChosen (choices ++ [⟨now, i⟩]) j = if i = j then now else r.lastChosen choices j := by
  unfold lastChosen
  rw [List.filter_append]
  by_cases h : i = j
  · simp [h]
  · simp [h]

theorem Role.lastChosen_le {r : Role} (hr : r.lastUsed ≤ now)
    (h : ∀ choice ∈ choices, choice.instant ≤ now) (i : Nat) : r.lastChosen choices i ≤ now := by
  unfold lastChosen
  cases hlast : (choices.filter (·.position = i)).getLast? with
  | none => exact hr
  | some choice => exact h choice (List.mem_filter.mp (List.mem_of_getLast? hlast)).1

/-- A check touches the first role that opens by the record. -/
theorem RoleCall.touched?_eq {s : Session} {c : RoleCall}
    (hroles : s.roles = roles.mapIdx (Role.since choices))
    (hpast : ∀ r ∈ roles, r.issuedAt ≤ now ∧ r.lastUsed ≤ now)
    (hchoices : ∀ choice ∈ choices, choice.instant ≤ now) :
    c.touched? s now = first? roles choices now c.required := by
  have hfits : (roles.mapIdx (Role.since choices)).map (Session.usable c.required now) =
      roles.mapIdx fun i r => decide (r.Fits choices now c.required i) := by
    refine List.ext_getElem? fun i => ?_
    rw [List.getElem?_map, List.getElem?_mapIdx, List.getElem?_mapIdx]
    cases hr : roles[i]? with
    | none => rfl
    | some r =>
      obtain ⟨hissued, hused⟩ := hpast r (List.mem_of_getElem? hr)
      have hiff : Session.usable c.required now (r.since choices i) = true ↔
          r.Fits choices now c.required i :=
        Role.isActive_since hissued (Role.lastChosen_le hused hchoices i)
      rw [Option.map_some, Option.map_some, Option.map_some, Option.some.injEq, Bool.eq_iff_iff,
        hiff, decide_eq_true_eq]
  rw [touched?, hroles, first?, ← hfits, List.findIdx?_map]
  rfl

/-- Touching a role is noting the choice of it. -/
theorem modify_since (roles : List Role) (choices : List Choice) (now : Instant) (i : Nat) :
    (roles.mapIdx (Role.since choices)).modify i (·.touch now) =
      roles.mapIdx (Role.since (choices ++ [⟨now, i⟩])) := by
  refine List.ext_getElem? fun j => ?_
  rw [List.getElem?_modify, List.getElem?_mapIdx, List.getElem?_mapIdx]
  cases roles[j]? with
  | none => rfl
  | some r =>
    by_cases h : i = j
    · simp [Role.since, Role.touch, Role.lastChosen_concat, h]
    · simp [Role.since, Role.lastChosen_concat, h]

/-- One check keeps the roles and the record in step. -/
theorem RoleCall.run_since {s : Session} (c : RoleCall)
    (hroles : s.roles = roles.mapIdx (Role.since choices))
    (hpast : ∀ r ∈ roles, r.issuedAt ≤ now ∧ r.lastUsed ≤ now)
    (hchoices : ∀ choice ∈ choices, choice.instant ≤ now) :
    (c.run s now).1.roles = roles.mapIdx (Role.since (choices ++ chosen roles choices now c)) := by
  rw [run_roles, touched?_eq hroles hpast hchoices, chosen]
  cases first? roles choices now c.required with
  | none =>
    rw [Option.map_none, Option.map_none, Option.getD_none, Option.toList_none, List.append_nil]
    exact hroles
  | some i =>
    rw [Option.map_some, Option.map_some, Option.getD_some, Option.toList_some, hroles]
    exact modify_since roles choices now i

end Record

/-- **The roles after a row of checks** are those at its start, last used when the record says. -/
theorem after_roles (s : Session) {calls : List (Instant × RoleCall)}
    (hsorted : (calls.map (·.1)).Pairwise (· ≤ ·))
    (hpast : ∀ r ∈ s.roles, ∀ t ∈ calls.map (·.1), r.issuedAt ≤ t ∧ r.lastUsed ≤ t) :
    (s.after calls).roles = s.roles.mapIdx (Role.since (choicesOf s.roles calls)) := by
  induction calls using List.reverseRecOn with
  | nil =>
    have hsame : ∀ i r, Role.since (choicesOf s.roles []) i r = r := fun _ _ => rfl
    refine List.ext_getElem? fun i => ?_
    rw [List.getElem?_mapIdx]
    change s.roles[i]? = _
    cases s.roles[i]? with
    | none => rfl
    | some r => rw [Option.map_some, hsame]
  | append_singleton calls call ih =>
    rw [List.map_append, List.pairwise_append] at hsorted
    obtain ⟨hcalls, -, hlast⟩ := hsorted
    have hbefore : ∀ r ∈ s.roles, ∀ t ∈ calls.map (·.1), r.issuedAt ≤ t ∧ r.lastUsed ≤ t := by
      intro r hr t ht
      exact hpast r hr t (by rw [List.map_append]; exact List.mem_append_left _ ht)
    have hnow : ∀ r ∈ s.roles, r.issuedAt ≤ call.1 ∧ r.lastUsed ≤ call.1 := by
      intro r hr
      exact hpast r hr call.1 (by simp)
    have hchoices : ∀ choice ∈ choicesOf s.roles calls, choice.instant ≤ call.1 := by
      intro choice hchoice
      exact hlast _ (instant_mem_of_choicesOf hchoice) _ List.mem_cons_self
    rw [Session.after_concat, choicesOf_concat]
    exact call.2.run_since (ih hcalls hbefore) hnow hchoices

/-! ## What has lapsed -/

theorem Role.within_mono {limit : Option Nat} {start t u : Instant} (htu : t ≤ u)
    (h : within limit start u = true) : within limit start t = true := by
  cases limit with
  | none => rfl
  | some n =>
    simp only [within, decide_eq_true_eq] at h ⊢
    exact Nat.lt_of_le_of_lt (Nat.sub_le_sub_right htu start) h

/-- A role that is active was so before, if it was not touched since. -/
theorem Role.isActive_mono {r : Role} {t u : Instant} (htu : t ≤ u) (h : r.isActive u = true) :
    r.isActive t = true := by
  rw [isActive, Bool.and_eq_true] at h ⊢
  exact ⟨within_mono htu h.1, within_mono htu h.2⟩

/-- Something that happens to the roles of a session. -/
inductive RoleEvent where
  | call (c : RoleCall)
  | grant (r : Role)
  | clear
deriving DecidableEq, Repr

namespace Session

/-- The session after an event. -/
def meet (s : Session) (now : Instant) : RoleEvent → Session
  | .call c => (c.run s now).1
  | .grant r => s.addRole r
  | .clear => s.clearRoles

/-- The session after a row of events. -/
def meetAll (s : Session) (events : List (Instant × RoleEvent)) : Session :=
  events.foldl (fun s e => s.meet e.1 e.2) s

/-- Whatever roles of a name are held, none is active. -/
def Lapsed (s : Session) (name : String) (t : Instant) : Prop :=
  ∀ r ∈ s.roles, r.name = name → r.isActive t = false

variable {s : Session} {name : String} {t now : Instant}

theorem Lapsed.mono {u : Instant} (h : s.Lapsed name t) (htu : t ≤ u) : s.Lapsed name u := by
  intro r hr hname
  rw [Bool.eq_false_iff]
  intro hactive
  have hnot := h r hr hname
  rw [Role.isActive_mono htu hactive] at hnot
  cases hnot

/-- A check touches active roles only. -/
theorem Lapsed.call (h : s.Lapsed name t) (ht : t ≤ now) (c : RoleCall) :
    (c.run s now).1.Lapsed name t := by
  unfold Lapsed
  rw [RoleCall.run_roles]
  cases htouched : c.touched? s now with
  | none => exact h
  | some i =>
    rw [Option.map_some, Option.getD_some]
    obtain ⟨hi, husable, -⟩ := List.findIdx?_eq_some_iff_getElem.mp htouched
    rw [usable, Bool.and_eq_true] at husable
    intro r hr hname
    obtain ⟨j, hj⟩ := List.mem_iff_getElem?.mp hr
    rw [List.getElem?_modify] at hj
    obtain ⟨q, hq, rfl⟩ := Option.map_eq_some_iff.mp hj
    by_cases hij : i = j
    · -- the role that was touched was active
      subst hij
      rw [if_pos rfl] at hname
      have hsame : s.roles[i] = q := Option.some.inj ((List.getElem?_eq_getElem hi).symm.trans hq)
      have hlapsed := h.mono ht q (List.mem_of_getElem? hq) hname
      rw [hsame, hlapsed] at husable
      cases husable.1
    · rw [if_neg hij] at hname ⊢
      exact h q (List.mem_of_getElem? hq) hname

theorem Lapsed.grant (h : s.Lapsed name t) {r : Role} (hr : r.name ≠ name) :
    (s.addRole r).Lapsed name t := by
  intro q hq hname
  rcases List.mem_append.mp hq with hq | hq
  · exact h q (List.mem_filter.mp hq).1 hname
  · rw [List.mem_singleton.mp hq] at hname
    exact absurd hname hr

/-- One event that grants no role of the name. -/
theorem Lapsed.step (h : s.Lapsed name t) (ht : t ≤ now) {e : RoleEvent}
    (he : ∀ r, e = .grant r → r.name ≠ name) : (s.meet now e).Lapsed name t := by
  cases e with
  | call c => exact h.call ht c
  | grant r => exact h.grant (he r rfl)
  | clear => exact fun r hr => nomatch hr

/-- **What has lapsed stays so** until a role of the name is granted. -/
theorem Lapsed.run (h : s.Lapsed name t) {events : List (Instant × RoleEvent)}
    (ht : ∀ e ∈ events, t ≤ e.1) (he : ∀ e ∈ events, ∀ r, e.2 = .grant r → r.name ≠ name) :
    (s.meetAll events).Lapsed name t := by
  induction events generalizing s with
  | nil => exact h
  | cons e events ih =>
    rw [List.forall_mem_cons] at ht he
    exact ih (h.step ht.1 he.1) ht.2 he.2

end Session

/-! ## The whole of it -/

section First

variable {roles : List Role} {choices : List Choice} {now : Instant} {required : List String}

/-- The role at a position opens. -/
def FitsAt (roles : List Role) (choices : List Choice) (now : Instant) (required : List String)
    (i : Nat) : Prop :=
  ∃ r, roles[i]? = some r ∧ r.Fits choices now required i

theorem fits_of_getElem {i : Nat}
    (h : i < (roles.mapIdx fun i r => decide (r.Fits choices now required i)).length) :
    id (roles.mapIdx fun i r => decide (r.Fits choices now required i))[i] = true ↔
      FitsAt roles choices now required i := by
  have hi : i < roles.length := by simpa using h
  simp [FitsAt, List.getElem?_eq_getElem hi]

theorem FitsAt.lt {i : Nat} (h : FitsAt roles choices now required i) :
    i < (roles.mapIdx fun i r => decide (r.Fits choices now required i)).length := by
  obtain ⟨r, hr, -⟩ := h
  rw [List.length_mapIdx]
  exact (List.getElem?_eq_some_iff.mp hr).1

theorem first?_eq_some {i : Nat} (h : FitsAt roles choices now required i)
    (hfirst : ∀ j < i, ¬FitsAt roles choices now required j) :
    first? roles choices now required = some i := by
  refine List.findIdx?_eq_some_iff_getElem.mpr ⟨h.lt, (fits_of_getElem h.lt).mpr h,
    fun j hj => ?_⟩
  rw [fits_of_getElem]
  exact hfirst j hj

theorem first?_eq_none : first? roles choices now required = none ↔
    ∀ i, ¬FitsAt roles choices now required i := by
  rw [first?, List.findIdx?_eq_none_iff]
  constructor
  · intro hnone i h
    have hfalse := hnone _ (List.getElem_mem h.lt)
    exact Bool.eq_false_iff.mp hfalse ((fits_of_getElem h.lt).mpr h)
  · intro hnone b hb
    obtain ⟨i, hi, rfl⟩ := List.mem_iff_getElem.mp hb
    exact Bool.eq_false_iff.mpr (mt (fits_of_getElem hi).mp (hnone i))

end First

/-- **Checks of roles follow their history.**  Of any session, checks are made, by mappings or
    directly, at instants that do not go back and are not before its roles were issued and used; a
    further check is made after them.

    * It is successful exactly if it is that of a mapping that requires no role, or some role opens:
      one that is required, was issued less than its lifetime ago, and was issued, or last chosen by
      one of the checks that were successful, less than its idle timeout ago.
    * Then the first role that opens is touched, and no other; if none opens, no role changes.
    * In every session, if no role of a name is active at some instant, then none is at any later
      instant, whatever checks were made and whatever roles were granted or taken away since, unless
      one of this name was granted. -/
theorem role_checks_follow_history (s : Session) (calls : List (Instant × RoleCall))
    (now : Instant) (call : RoleCall)
    (hsorted : (calls.map (·.1) ++ [now]).Pairwise (· ≤ ·))
    (hpast : ∀ r ∈ s.roles, ∀ t ∈ calls.map (·.1) ++ [now], r.issuedAt ≤ t ∧ r.lastUsed ≤ t) :
    let choices := choicesOf s.roles calls
    let fits := FitsAt s.roles choices now call.required
    let t := s.after calls
    ((call.run t now).2 = true ↔ call.IsOpen ∨ ∃ i, fits i) ∧
    (∀ i, fits i → (∀ j < i, ¬fits j) →
      (call.run t now).1.roles = t.roles.modify i (·.touch now)) ∧
    ((∀ i, ¬fits i) → (call.run t now).1.roles = t.roles) ∧
    ∀ (u : Session) (name : String) (past : Instant) (events : List (Instant × RoleEvent)),
      u.Lapsed name past → (∀ e ∈ events, past ≤ e.1) →
      (∀ e ∈ events, ∀ r, e.2 = .grant r → r.name ≠ name) →
      ∀ later, past ≤ later → (u.meetAll events).Lapsed name later := by
  intro choices fits t
  rw [List.pairwise_append] at hsorted
  obtain ⟨hcalls, -, hlast⟩ := hsorted
  have hroles : t.roles = s.roles.mapIdx (Role.since choices) :=
    after_roles s hcalls fun r hr u hu => hpast r hr u (List.mem_append_left _ hu)
  have hnow : ∀ r ∈ s.roles, r.issuedAt ≤ now ∧ r.lastUsed ≤ now := fun r hr =>
    hpast r hr now (List.mem_append_right _ List.mem_cons_self)
  have hchoices : ∀ choice ∈ choices, choice.instant ≤ now := fun choice hchoice =>
    hlast _ (instant_mem_of_choicesOf hchoice) _ List.mem_cons_self
  have htouched : call.touched? t now = first? s.roles choices now call.required :=
    RoleCall.touched?_eq hroles hnow hchoices
  refine ⟨?_, fun i hi hfirst => ?_, fun hnone => ?_,
    fun u name past events hlapsed hpast hgrants later hlater =>
      (hlapsed.run hpast hgrants).mono hlater⟩
  · rw [RoleCall.run_eq_true, htouched, Option.isSome_iff_ne_none, Ne, first?_eq_none,
      not_forall_not]
  · rw [RoleCall.run_roles, htouched, first?_eq_some hi hfirst]
    rfl
  · rw [RoleCall.run_roles, htouched, first?_eq_none.mpr hnone]
    rfl

/-- A session with two roles, the second of which has the shorter idle timeout. -/
def watched : Session :=
  { Session.fresh with roles := [⟨"a", some 10, some 60, 0, 0⟩, ⟨"b", some 5, none, 0, 0⟩] }

/-- Both roles are asked for after four seconds, the second one after nine. -/
def checksOfWatched : List (Instant × RoleCall) :=
  [(Duration.ofSeconds 4, .use ["b", "a"]), (Duration.ofSeconds 9, .use ["b"])]

/-- A mapping that both roles open. -/
def checkOfBoth : RoleCall := .check { Mapping.denyAll with requiredRoles := ["b", "a"] }

/-- After twelve seconds the first role still opens the mapping, because it was chosen by the first
    check; it would not by its grant alone. -/
theorem role_checks_follow_history_watched :
    (checksOfWatched.map (·.1) ++ [Duration.ofSeconds 12]).Pairwise (· ≤ ·) ∧
    (∀ r ∈ watched.roles, ∀ u ∈ checksOfWatched.map (·.1) ++ [Duration.ofSeconds 12],
      r.issuedAt ≤ u ∧ r.lastUsed ≤ u) ∧
    choicesOf watched.roles checksOfWatched = [⟨Duration.ofSeconds 4, 0⟩] ∧
    (checkOfBoth.run (watched.after checksOfWatched) (Duration.ofSeconds 12)).2 = true ∧
    (checkOfBoth.run (watched.after checksOfWatched) (Duration.ofSeconds 12)).1.roles =
      (watched.after checksOfWatched).roles.modify 0 (·.touch (Duration.ofSeconds 12)) := by
  have hsorted : (checksOfWatched.map (·.1) ++ [Duration.ofSeconds 12]).Pairwise (· ≤ ·) := by
    decide
  have hpast : ∀ r ∈ watched.roles, ∀ u ∈ checksOfWatched.map (·.1) ++ [Duration.ofSeconds 12],
      r.issuedAt ≤ u ∧ r.lastUsed ≤ u := by
    decide
  have hchoices : choicesOf watched.roles checksOfWatched = [⟨Duration.ofSeconds 4, 0⟩] := by
    decide +kernel
  have hfits : FitsAt watched.roles (choicesOf watched.roles checksOfWatched)
      (Duration.ofSeconds 12) checkOfBoth.required 0 := by
    rw [hchoices]
    exact ⟨_, rfl, by decide +kernel⟩
  obtain ⟨hsuccess, htouched, -, -⟩ :=
    role_checks_follow_history watched checksOfWatched (Duration.ofSeconds 12) checkOfBoth hsorted
      hpast
  exact ⟨hsorted, hpast, hchoices, hsuccess.mpr (.inr ⟨0, hfits⟩), htouched 0 hfits nofun⟩

end AccessGateway

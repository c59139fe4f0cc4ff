import AccessGateway.Proofs.Access.Admission

/-!
# Granting roles

A role carries the instant at which it was granted, and nothing else of a grant depends on that
instant.  So whether roles open a part of the site in the very instant in which they are granted
depends on the commands that grant them only.

## Results

* `Command.run_grantedAt`, `Harvest.run_grantedAt` — the roles that commands grant at one instant
  and at another.
* `Harvest.holdsAny_fresh` — what a harvest opens at once, it opens at every instant.
* `Harvest.run_roleless` — a harvest without grants leaves a session without roles as it is.
-/

set_option autoImplicit false

namespace AccessGateway

variable {s t : Session} {now later : Instant}

/-! ## The instant of a grant -/

namespace Role

/-- The same role, granted at another instant. -/
def grantedAt (now : Instant) (r : Role) : Role := { r with issuedAt := now, lastUsed := now }

theorem parse?_grantedAt (now later : Instant) (definition : List Char) :
    parse? definition later = (parse? definition now).map (grantedAt later) := by
  unfold parse?
  split
  · rfl
  · split
    · rfl
    · rfl

theorem parseList_grantedAt (now later : Instant) (definitions : String) :
    parseList definitions later = (parseList definitions now).map (grantedAt later) := by
  unfold parseList
  rw [List.map_filterMap]
  have hparse : (parse? · later) =
      fun definition => (parse? definition now).map (grantedAt later) :=
    funext (parse?_grantedAt now later)
  rw [hparse]

theorem isActive_grantedAt (now later : Instant) (r : Role) :
    (r.grantedAt later).isActive later = (r.grantedAt now).isActive now := by
  have hwithin : ∀ limit : Option Nat, within limit later later = within limit now now := by
    intro limit
    unfold within
    rw [Nat.sub_self, Nat.sub_self]
  unfold isActive grantedAt
  rw [hwithin, hwithin]

end Role

theorem Session.addRoles_grantedAt (h : s.roles = t.roles.map (Role.grantedAt later))
    (rs : List Role) :
    (s.addRoles (rs.map (Role.grantedAt later))).roles =
      (t.addRoles rs).roles.map (Role.grantedAt later) := by
  unfold addRoles
  induction rs generalizing s t with
  | nil => exact h
  | cons r rs ih =>
    refine ih ?_
    unfold addRole
    rw [h, List.map_append, List.filter_map]
    rfl

/-- Commands grant the same roles at every instant. -/
theorem Command.run_grantedAt (h : s.roles = t.roles.map (Role.grantedAt later))
    (cs : List Command) :
    (run s later cs).1.roles = (run t now cs).1.roles.map (Role.grantedAt later) := by
  induction cs generalizing s t with
  | nil => exact h
  | cons c cs ih =>
    cases c with
    | addCredentials roles =>
      refine ih ?_
      rw [Role.parseList_grantedAt now later roles]
      exact Session.addRoles_grantedAt h _
    | setCredentials roles =>
      refine ih ?_
      rw [Role.parseList_grantedAt now later roles]
      exact Session.addRoles_grantedAt (s := s.clearRoles) (t := t.clearRoles) rfl _
    | auditToken token => exact ih h
    | endSession reason => exact h

namespace Harvest

variable {root : String} {values : List HeaderValue}

theorem run_grantedAt (h : s.roles = t.roles.map (Role.grantedAt later)) :
    (run s root values later).1.roles =
      (run t root values now).1.roles.map (Role.grantedAt later) := by
  cases he : endsSession values with
  | true =>
    rw [run_ended s root values he, run_ended t root values he]
    rfl
  | false =>
    rw [run_kept s root values he, run_kept t root values he]
    exact Command.run_grantedAt h _

/-- Whether a session without roles holds a required one after a harvest does not depend on when
    that is. -/
theorem holdsAny_fresh (required : List String) (now later : Instant) :
    (run .fresh root values later).1.HoldsAny required later ↔
      (run .fresh root values now).1.HoldsAny required now := by
  have hroles : ∀ instant, (run .fresh root values instant).1.roles =
      (run .fresh root values now).1.roles.map (Role.grantedAt instant) :=
    fun instant => run_grantedAt rfl
  unfold Session.HoldsAny
  rw [hroles later]
  -- what was granted now is what would be granted now
  conv => rhs; rw [hroles now]
  constructor
  · rintro ⟨_, hgranted, hactive, hname⟩
    obtain ⟨role, hrole, rfl⟩ := List.mem_map.mp hgranted
    rw [Role.isActive_grantedAt now later] at hactive
    exact ⟨_, List.mem_map_of_mem hrole, hactive, hname⟩
  · rintro ⟨_, hgranted, hactive, hname⟩
    obtain ⟨role, hrole, rfl⟩ := List.mem_map.mp hgranted
    rw [Role.isActive_grantedAt later now] at hactive
    exact ⟨_, List.mem_map_of_mem hrole, hactive, hname⟩

end Harvest

/-! ## Without a grant -/

/-- A command that grants roles. -/
def Command.grants : Command → Bool
  | .addCredentials _ | .setCredentials _ => true
  | .auditToken _ | .endSession _ => false

theorem Command.run_roleless (h : s.roles = []) {cs : List Command}
    (hcs : ∀ c ∈ cs, c.grants = false) : (run s now cs).1.roles = [] := by
  induction cs generalizing s with
  | nil => exact h
  | cons c cs ih =>
    have hrest : ∀ d ∈ cs, d.grants = false := fun d hd => hcs d (List.mem_cons_of_mem _ hd)
    have hc := hcs c List.mem_cons_self
    cases c with
    | addCredentials roles => cases hc
    | setCredentials roles => cases hc
    | auditToken token => exact ih h hrest
    | endSession reason => exact h

theorem Harvest.run_roleless (h : s.roles = []) (root : String) {values : List HeaderValue}
    (hvalues : ∀ c ∈ commands values, c.grants = false) :
    (run s root values now).1.roles = [] := by
  cases he : endsSession values with
  | true =>
    rw [run_ended s root values he]
    rfl
  | false =>
    rw [run_kept s root values he]
    exact Command.run_roleless h hvalues

end AccessGateway

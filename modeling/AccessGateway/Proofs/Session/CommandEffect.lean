import AccessGateway.Proofs.Session.Harvesting

/-!
# What commands come to

Commands are carried out one by one, each in the session that the ones before it left.  Here the
outcome of a whole row is read off the row: only the commands before the first one that ends the
session are carried out, of these only the last one that takes all roles away and the ones behind it
say anything about roles, and of the definitions in them only the last one of each name counts.

## Results

* `Role.latest` — the last definitions in a row; `Session.addRoles_latest` — granting a row of roles
  leaves these in the place of their namesakes.
* `Command.run_granted` — the roles after a row of commands; `Command.run_auditToken` — the token.
* `commands_effect` — all that a row of commands comes to.
-/

set_option autoImplicit false

namespace AccessGateway

/-! ## The last definitions -/

namespace Role

/-- The last role of each name, in the order in which these stand. -/
def latest : List Role → List Role
  | [] => []
  | r :: rs => if r.name ∈ rs.map (·.name) then latest rs else r :: latest rs

theorem mem_names_latest {name : String} (rs : List Role) :
    name ∈ (latest rs).map (·.name) ↔ name ∈ rs.map (·.name) := by
  induction rs with
  | nil => rfl
  | cons r rs ih =>
    rw [latest]
    split
    · rename_i hagain
      rw [ih, List.map_cons, List.mem_cons]
      refine ⟨Or.inr, fun h => h.elim ?_ id⟩
      rintro rfl
      exact hagain
    · rw [List.map_cons, List.map_cons, List.mem_cons, List.mem_cons, ih]

/-- No name is left twice. -/
theorem nodup_latest (rs : List Role) : ((latest rs).map (·.name)).Nodup := by
  induction rs with
  | nil => exact List.nodup_nil
  | cons r rs ih =>
    rw [latest]
    split
    · exact ih
    · rename_i hnew
      rw [List.map_cons, List.nodup_cons, mem_names_latest]
      exact ⟨hnew, ih⟩

theorem filter_name_eq_nil {name : String} {rs : List Role} (h : name ∉ rs.map (·.name)) :
    rs.filter (·.name = name) = [] := by
  refine List.filter_eq_nil_iff.mpr fun r hr hname => h ?_
  exact of_decide_eq_true hname ▸ List.mem_map_of_mem hr

/-- What is left of a name is its last role. -/
theorem filter_latest (name : String) (rs : List Role) :
    (latest rs).filter (·.name = name) = (rs.filter (·.name = name)).getLast?.toList := by
  induction rs with
  | nil => rfl
  | cons r rs ih =>
    rw [latest]
    by_cases hname : r.name = name
    · have hfilter (qs : List Role) :
          (r :: qs).filter (·.name = name) = r :: qs.filter (·.name = name) :=
        List.filter_cons_of_pos (by simpa using hname)
      rw [hfilter, List.getLast?_cons]
      split
      · rename_i hagain
        obtain ⟨q, hq, hqr⟩ := List.mem_map.mp hagain
        have hne : rs.filter (·.name = name) ≠ [] :=
          List.ne_nil_of_mem (List.mem_filter.mpr ⟨hq, decide_eq_true (hqr.trans hname)⟩)
        rw [ih, List.getLast?_eq_some_getLast hne]
        rfl
      · rename_i hnew
        rw [hname] at hnew
        rw [hfilter, filter_name_eq_nil (mt (mem_names_latest rs).mp hnew),
          filter_name_eq_nil hnew]
        rfl
    · have hfilter (qs : List Role) :
          (r :: qs).filter (·.name = name) = qs.filter (·.name = name) :=
        List.filter_cons_of_neg (by simpa using hname)
      rw [hfilter, ← ih]
      split
      · rfl
      · exact hfilter _

/-- Roles are granted at the instant at which they are read. -/
theorem granted_of_mem_parseList {definitions : String} {now : Instant} {r : Role}
    (h : r ∈ parseList definitions now) : r.issuedAt = now ∧ r.lastUsed = now := by
  obtain ⟨definition, -, hread⟩ := List.mem_filterMap.mp h
  unfold parse? at hread
  split at hread
  · cases hread
  · split at hread
    · cases hread
    · cases hread
      exact ⟨rfl, rfl⟩

end Role

namespace Session

theorem addRoles_append (s : Session) (rs qs : List Role) :
    s.addRoles (rs ++ qs) = (s.addRoles rs).addRoles qs := List.foldl_append

/-- **Granting a row of roles** leaves the last one of each name, in the place of its namesakes. -/
theorem addRoles_latest (s : Session) (rs : List Role) :
    (s.addRoles rs).roles =
      s.roles.filter (fun r => r.name ∉ rs.map (·.name)) ++ Role.latest rs := by
  induction rs generalizing s with
  | nil =>
    have hall : s.roles.filter (fun r => r.name ∉ ([] : List Role).map (·.name)) = s.roles :=
      List.filter_eq_self.mpr fun r _ => by simp
    rw [hall]
    exact (List.append_nil _).symm
  | cons r rs ih =>
    have hstep : s.addRoles (r :: rs) = (s.addRole r).addRoles rs := rfl
    have hothers : (s.roles.filter (·.name ≠ r.name)).filter (fun q => q.name ∉ rs.map (·.name)) =
        s.roles.filter (fun q => q.name ∉ (r :: rs).map (·.name)) := by
      rw [List.filter_filter]
      refine List.filter_congr fun q _ => ?_
      simp only [List.map_cons, List.mem_cons, not_or]
      by_cases hq : q.name = r.name <;> simp [hq]
    rw [hstep, ih, addRole, List.filter_append, hothers, List.append_assoc, Role.latest]
    by_cases hagain : r.name ∈ rs.map (·.name)
    · rw [List.filter_cons_of_neg (by simpa using hagain), if_pos hagain]
      rfl
    · rw [List.filter_cons_of_pos (by simpa using hagain), if_neg hagain]
      rfl

theorem mem_names_addRoles {s : Session} {rs : List Role} {name : String} :
    name ∈ (s.addRoles rs).roleNames ↔ name ∈ s.roleNames ∨ name ∈ rs.map (·.name) := by
  unfold roleNames
  rw [addRoles_latest, List.map_append, List.mem_append, Role.mem_names_latest]
  by_cases hdefined : name ∈ rs.map (·.name)
  · simp only [hdefined, or_true]
  · simp only [hdefined, or_false, List.mem_map, List.mem_filter]
    constructor
    · rintro ⟨r, ⟨hr, -⟩, hname⟩
      exact ⟨r, hr, hname⟩
    · rintro ⟨r, hr, rfl⟩
      exact ⟨r, ⟨hr, decide_eq_true (by simpa using hdefined)⟩, rfl⟩

/-- Of a name that is granted the last role is held, and nothing else. -/
theorem filter_addRoles_granted (s : Session) {rs : List Role} {name : String}
    (h : name ∈ rs.map (·.name)) :
    (s.addRoles rs).roles.filter (·.name = name) =
      (rs.filter (·.name = name)).getLast?.toList := by
  have hnone : (s.roles.filter fun r => r.name ∉ rs.map (·.name)).filter (·.name = name) = [] := by
    refine List.filter_eq_nil_iff.mpr fun r hr hname => ?_
    have hnot := of_decide_eq_true (List.mem_filter.mp hr).2
    rw [of_decide_eq_true hname] at hnot
    exact hnot h
  rw [addRoles_latest, List.filter_append, hnone, List.nil_append, Role.filter_latest]

/-- Of another name all roles are held that were held before. -/
theorem filter_addRoles_other (s : Session) {rs : List Role} {name : String}
    (h : name ∉ rs.map (·.name)) :
    (s.addRoles rs).roles.filter (·.name = name) = s.roles.filter (·.name = name) := by
  have hkept : (s.roles.filter fun r => r.name ∉ rs.map (·.name)).filter (·.name = name) =
      s.roles.filter (·.name = name) := by
    rw [List.filter_filter]
    refine List.filter_congr fun r _ => ?_
    by_cases hname : r.name = name
    · subst hname
      simpa using h
    · simp [hname]
  rw [addRoles_latest, List.filter_append, hkept,
    Role.filter_name_eq_nil (mt (Role.mem_names_latest rs).mp h), List.append_nil]

/-- No name comes to be held twice. -/
theorem nodup_addRoles {s : Session} (h : s.roleNames.Nodup) (rs : List Role) :
    (s.addRoles rs).roleNames.Nodup := by
  unfold roleNames at h ⊢
  rw [addRoles_latest, List.map_append]
  rw [List.nodup_append]
  refine ⟨h.sublist (List.filter_sublist.map _), Role.nodup_latest rs, ?_⟩
  rintro name hkept _ hgranted rfl
  obtain ⟨r, hr, rfl⟩ := List.mem_map.mp hkept
  exact of_decide_eq_true (List.mem_filter.mp hr).2 ((Role.mem_names_latest rs).mp hgranted)

end Session

/-! ## Rows of commands -/

namespace Command

/-- The last command that takes all roles away, with the ones behind it; all of them, if there is
    none. -/
def sinceReset : List Command → List Command
  | [] => []
  | c :: cs => if cs.any resets then sinceReset cs else c :: cs

/-- The roles that a command defines. -/
def definitions (now : Instant) : Command → List Role
  | .addCredentials roles | .setCredentials roles => Role.parseList roles now
  | _ => []

/-- The token that a command brings. -/
def token? : Command → Option String
  | .auditToken token => some token
  | _ => none

/-- The commands that are carried out. -/
def carried (cs : List Command) : List Command := cs.takeWhile (!·.isEnd)

theorem carried_cons {c : Command} (h : c.isEnd = false) (cs : List Command) :
    carried (c :: cs) = c :: carried cs :=
  List.takeWhile_cons_of_pos (by simp [h])

theorem carried_eq_self {cs : List Command} (h : cs.any isEnd = false) : carried cs = cs := by
  induction cs with
  | nil => rfl
  | cons c cs ih =>
    rw [List.any_cons, Bool.or_eq_false_iff] at h
    rw [carried_cons h.1, ih h.2]

theorem sinceReset_of_none {cs : List Command} (h : cs.any resets = false) :
    sinceReset cs = cs := by
  cases cs with
  | nil => rfl
  | cons c cs =>
    rw [List.any_cons, Bool.or_eq_false_iff] at h
    rw [sinceReset, if_neg (by simp [h.2])]

theorem sinceReset_cons {cs : List Command} (h : cs.any resets = true) (c : Command) :
    sinceReset (c :: cs) = sinceReset cs := if_pos h

/-- The roles that a row of commands finds, and those that it defines: what the roles come to. -/
def granted (s : Session) (now : Instant) (cs : List Command) : Session :=
  (if cs.any resets then s.clearRoles else s).addRoles ((sinceReset cs).flatMap (definitions now))

/-- A command in front of others. -/
theorem granted_cons (s : Session) (now : Instant) (c : Command) (cs : List Command) :
    (granted s now (c :: cs)).roles =
      (granted ((if c.resets then s.clearRoles else s).addRoles (definitions now c)) now
        cs).roles := by
  unfold granted
  cases hcs : cs.any resets with
  | true =>
    -- what comes later takes everything away
    rw [sinceReset_cons hcs]
    simp only [List.any_cons, hcs, Bool.or_true, if_true]
    refine addRoles_roles (s := s.clearRoles) (t := Session.clearRoles _) ?_ _
    rfl
  | false =>
    have hall : sinceReset (c :: cs) = c :: cs := by
      rw [sinceReset, if_neg (by simp [hcs])]
    rw [hall, sinceReset_of_none hcs, List.flatMap_cons, Session.addRoles_append]
    simp only [List.any_cons, hcs, Bool.or_false, Bool.false_eq_true, if_false]

/-- **The roles after commands**: only the last command that takes all roles away and the ones
    behind it matter. -/
theorem run_granted (s : Session) (now : Instant) (cs : List Command) :
    (run s now cs).1.roles = (granted s now (carried cs)).roles := by
  induction cs generalizing s with
  | nil => rfl
  | cons c cs ih =>
    cases c with
    | addCredentials roles =>
      rw [run, ih, carried_cons rfl, granted_cons]
      rfl
    | setCredentials roles =>
      rw [run, ih, carried_cons rfl, granted_cons]
      rfl
    | auditToken token =>
      have hsame : (run { s with auditToken := some token } now cs).1.roles =
          (run s now cs).1.roles := by
        refine run_roles (t := s) ?_ now cs
        rfl
      rw [run, hsame, ih, carried_cons rfl, granted_cons]
      rfl
    | endSession reason => rfl

/-- The token is the last one. -/
theorem run_auditToken (s : Session) (now : Instant) (cs : List Command) :
    (run s now cs).1.auditToken = ((carried cs).filterMap token?).getLast?.or s.auditToken := by
  induction cs generalizing s with
  | nil => rfl
  | cons c cs ih =>
    cases c with
    | addCredentials roles =>
      rw [run, ih, addRoles_eq, carried_cons rfl]
      rfl
    | setCredentials roles =>
      rw [run, ih, addRoles_eq, carried_cons rfl]
      rfl
    | auditToken token =>
      have htokens : (carried (.auditToken token :: cs)).filterMap token? =
          token :: (carried cs).filterMap token? := by
        rw [carried_cons rfl]
        rfl
      rw [run, ih, htokens, List.getLast?_cons]
      cases ((carried cs).filterMap token?).getLast? <;> rfl
    | endSession reason => rfl

end Command

open Command in
/-- **What a row of commands comes to.**  It ends the session exactly if one of the commands says
    so, and the commands before the first such are carried out.

    * The roles afterwards are those that were kept, less those defined anew, and behind them the
      last definition of each name.  Kept are the roles before, if none of the commands takes all
      roles away, and else none; what is defined is what the last of these commands and the ones
      behind it define.
    * So the names are those of kept and defined roles; a defined name is held once, by its last
      definition, granted and last used now; the roles of another name are as they were kept; and no
      name is held twice, if none was before.
    * The token is the last one that was brought, if any was; nothing else changes. -/
theorem commands_effect (s : Session) (now : Instant) (cs : List Command) :
    let carried := cs.takeWhile (!·.isEnd)
    let kept := if carried.any resets then [] else s.roles
    let defined := (sinceReset carried).flatMap (definitions now)
    let t := (Command.run s now cs).1
    ((Command.run s now cs).2 = true ↔ ∃ c ∈ cs, c.isEnd = true) ∧
    t.roles = kept.filter (fun r => r.name ∉ defined.map (·.name)) ++ Role.latest defined ∧
    (∀ name, name ∈ t.roleNames ↔ name ∈ kept.map (·.name) ∨ name ∈ defined.map (·.name)) ∧
    (∀ name ∈ defined.map (·.name), ∃ r, (defined.filter (·.name = name)).getLast? = some r ∧
      t.roles.filter (·.name = name) = [r] ∧ r.issuedAt = now ∧ r.lastUsed = now) ∧
    (∀ name ∉ defined.map (·.name),
      t.roles.filter (·.name = name) = kept.filter (·.name = name)) ∧
    (s.roleNames.Nodup → t.roleNames.Nodup) ∧
    t = { s with
      roles := t.roles
      auditToken := (carried.filterMap token?).getLast?.or s.auditToken } := by
  intro carried kept defined t
  let base := if carried.any resets then s.clearRoles else s
  have hbase : base.roles = kept := by
    unfold base kept
    split <;> rfl
  have hroles : t.roles = (base.addRoles defined).roles := run_granted s now cs
  have hnow : ∀ r ∈ defined, r.issuedAt = now ∧ r.lastUsed = now := by
    intro r hr
    obtain ⟨c, -, hc⟩ := List.mem_flatMap.mp hr
    cases c with
    | addCredentials roles => exact Role.granted_of_mem_parseList hc
    | setCredentials roles => exact Role.granted_of_mem_parseList hc
    | auditToken token => cases hc
    | endSession reason => cases hc
  refine ⟨?_, ?_, fun name => ?_, fun name hname => ?_, fun name hname => ?_, fun hdistinct => ?_,
    ?_⟩
  · rw [run_snd, List.any_eq_true]
  · rw [hroles, Session.addRoles_latest, hbase]
  · rw [Session.roleNames, hroles, ← hbase]
    exact Session.mem_names_addRoles
  · rw [hroles, Session.filter_addRoles_granted base hname]
    obtain ⟨q, hq, hqname⟩ := List.mem_map.mp hname
    have hne : defined.filter (·.name = name) ≠ [] :=
      List.ne_nil_of_mem (List.mem_filter.mpr ⟨hq, decide_eq_true hqname⟩)
    have hlast := List.getLast?_eq_some_getLast hne
    have hmem := (List.mem_filter.mp (List.getLast_mem hne)).1
    exact ⟨_, hlast, by rw [hlast]; rfl, hnow _ hmem⟩
  · rw [hroles, Session.filter_addRoles_other base hname, hbase]
  · have hkept : base.roleNames.Nodup := by
      unfold base
      split
      · exact List.nodup_nil
      · exact hdistinct
    have hafter := Session.nodup_addRoles hkept defined
    rwa [Session.roleNames, ← hroles] at hafter
  · have hothers : t = { s with roles := t.roles, auditToken := t.auditToken } := run_eq s now cs
    have htoken : t.auditToken = (carried.filterMap token?).getLast?.or s.auditToken :=
      run_auditToken s now cs
    rwa [htoken] at hothers

/-- Two definitions of one name, the first of them before all roles are taken away. -/
example : (Command.run { Session.fresh with roles := [.plain "a" 0, .plain "b" 0] } 7
    [.addCredentials "c", .setCredentials "a:5,d", .auditToken "t", .addCredentials "a:9",
      .endSession "", .addCredentials "e"]).1.roles =
    [⟨"d", none, none, 7, 7⟩, ⟨"a", some 9, none, 7, 7⟩] := by
  decide +kernel

end AccessGateway

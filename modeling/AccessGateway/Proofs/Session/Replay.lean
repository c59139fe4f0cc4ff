import AccessGateway.Proofs.Session.Outcome
import Mathlib.Data.Finset.Card
import Mathlib.Data.Finset.Dedup
import Mathlib.Data.List.DropRight
import Mathlib.Data.List.Nodup

/-!
# What a jar replays

A jar is a row of shelves, one for each path, that is changed cookie by cookie.  What is in it, and
in which order, can be read off the row of cookies that were stored since it was last emptied: a
path has the place of its first cookie, and on the shelf of a path only the last cookie of each name
counts, at the place where it came.

## Results

* `Stored.kept` — what is left of a row of stored cookies, in order.
* `Stored.mem_kept`, `Stored.nodup_kept`, `Stored.length_kept` — the last of each path and name is
  left, once, and nothing else.
* `CookieJar.shelves_ofLog`, `CookieJar.run_eq` — the shelves of a jar after any operations.
* `replay_follows_log` — the `Cookie` field and the size of a jar after any operations.
-/

set_option autoImplicit false

namespace AccessGateway

/-! ## Rows of stored cookies -/

/-- A cookie that was stored, with the path that it is for. -/
structure Stored where
  path : String
  name : String
  value : String
deriving DecidableEq, Repr

namespace Stored

/-- What is stored of a cookie that came for the part of the site under `root`: it is for its own
    path, unless that is missing or empty. -/
def ofCookie (root : String) (c : Cookie) : Stored :=
  ⟨(c.path.filter (· ≠ "")).getD root, c.name, c.value⟩

/-- What tells two cookies of a jar apart. -/
def place (c : Stored) : String × String := (c.path, c.name)

/-- What is sent of a cookie. -/
def pair (c : Stored) : String × String := (c.name, c.value)

/-- The paths of a row of cookies, in the order of their first cookies. -/
def paths (log : List Stored) : List String := (log.map (·.path)).eraseDups

/-- The cookies that no later one of the same name replaces. -/
def latest : List Stored → List Stored
  | [] => []
  | c :: log => if c.name ∈ log.map (·.name) then latest log else c :: latest log

/-- What is left of a row of cookies: path by path, and for each path the latest of each name. -/
def kept (log : List Stored) : List Stored :=
  (paths log).flatMap fun path => latest (log.filter (·.path = path))

variable {log : List Stored} {c d : Stored} {path : String}

/-! ### Paths -/

theorem mem_paths : path ∈ paths log ↔ ∃ c ∈ log, c.path = path := by
  rw [paths, List.mem_eraseDups, List.mem_map]

/-- A path that is new comes last. -/
theorem paths_concat (log : List Stored) (c : Stored) :
    paths (log ++ [c]) = if c.path ∈ paths log then paths log else paths log ++ [c.path] := by
  have hmem : c.path ∈ paths log ↔ c.path ∈ log.map (·.path) := List.mem_eraseDups
  unfold paths at hmem ⊢
  rw [List.map_append, List.eraseDups_append, List.map_singleton]
  by_cases h : c.path ∈ log.map (·.path)
  · have hgone : [c.path].removeAll (log.map (·.path)) = [] := by
      simpa [List.removeAll] using h
    rw [hgone, if_pos (hmem.mpr h), List.eraseDups_nil, List.append_nil]
  · have hkept : [c.path].removeAll (log.map (·.path)) = [c.path] := by
      simpa [List.removeAll] using h
    rw [hkept, if_neg (mt hmem.mp h)]
    rfl

theorem nodup_paths (log : List Stored) : (paths log).Nodup := by
  induction log using List.reverseRecOn with
  | nil => exact List.nodup_nil
  | append_singleton log c ih =>
    rw [paths_concat]
    split
    · exact ih
    · rename_i hnew
      refine List.nodup_append.mpr ⟨ih, List.nodup_singleton _, ?_⟩
      rintro p hp q hq rfl
      exact hnew (List.mem_singleton.mp hq ▸ hp)

/-! ### The latest of each name -/

/-- A cookie takes its namesake away and comes last. -/
theorem latest_concat (log : List Stored) (c : Stored) :
    latest (log ++ [c]) = (latest log).filter (·.name ≠ c.name) ++ [c] := by
  induction log with
  | nil => simp [latest]
  | cons d log ih =>
    rw [List.cons_append, latest, latest]
    by_cases hlater : d.name ∈ log.map (·.name)
    · have hlater' : d.name ∈ (log ++ [c]).map (·.name) := by
        rw [List.map_append]
        exact List.mem_append_left _ hlater
      rw [if_pos hlater, if_pos hlater', ih]
    · rw [if_neg hlater]
      by_cases hname : d.name = c.name
      · have hlast : d.name ∈ (log ++ [c]).map (·.name) := by simp [hname]
        rw [if_pos hlast, ih, List.filter_cons_of_neg (by simp [hname])]
      · have hnew : d.name ∉ (log ++ [c]).map (·.name) := by
          rw [List.map_append, List.mem_append, not_or]
          exact ⟨hlater, by simpa using hname⟩
        rw [if_neg hnew, ih, List.filter_cons_of_pos (by simpa using hname), List.cons_append]

theorem latest_sublist (log : List Stored) : (latest log).Sublist log := by
  induction log with
  | nil => exact List.Sublist.slnil
  | cons c log ih =>
    unfold latest
    split
    · exact ih.cons c
    · exact ih.cons_cons c

theorem nodup_latest (log : List Stored) : ((latest log).map (·.name)).Nodup := by
  induction log with
  | nil => exact List.nodup_nil
  | cons c log ih =>
    unfold latest
    split
    · exact ih
    · rename_i hnew
      rw [List.map_cons, List.nodup_cons]
      exact ⟨fun h => hnew (((latest_sublist log).map _).subset h), ih⟩

/-- The latest cookies are the last ones of their names. -/
theorem mem_latest : c ∈ latest log ↔ (log.filter (·.name = c.name)).getLast? = some c := by
  induction log using List.reverseRecOn with
  | nil => simp [latest]
  | append_singleton log d ih =>
    rw [latest_concat, List.mem_append, List.mem_singleton, List.mem_filter, ih,
      List.filter_append]
    by_cases hname : d.name = c.name
    · simp [hname, eq_comm]
    · have hne : c.name ≠ d.name := Ne.symm hname
      have hcd : c ≠ d := fun h => hne (congrArg Stored.name h)
      simp [hname, hne, hcd]

/-! ### What is left -/

theorem path_of_mem (h : c ∈ latest (log.filter (·.path = path))) : c.path = path := by
  have hc := (latest_sublist _).subset h
  simpa using (List.mem_filter.mp hc).2

/-- What is left are the last cookies of each path and name. -/
theorem mem_kept : c ∈ kept log ↔ (log.filter (·.place = c.place)).getLast? = some c := by
  have hfilter : (log.filter (·.path = c.path)).filter (·.name = c.name) =
      log.filter (·.place = c.place) := by
    rw [List.filter_filter]
    exact List.filter_congr fun d _ => by simp [place, Bool.and_comm]
  rw [← hfilter, ← mem_latest]
  unfold kept
  rw [List.mem_flatMap]
  constructor
  · rintro ⟨path, -, hc⟩
    rwa [path_of_mem hc]
  · intro hc
    have hmem := (List.mem_filter.mp ((latest_sublist _).subset hc)).1
    exact ⟨c.path, mem_paths.mpr ⟨c, hmem, rfl⟩, hc⟩

theorem nodup_kept (log : List Stored) : ((kept log).map place).Nodup := by
  unfold kept
  rw [List.map_flatMap, List.nodup_flatMap]
  constructor
  · intro path _
    refine List.Nodup.of_map Prod.snd ?_
    rw [List.map_map]
    exact nodup_latest _
  · refine (nodup_paths log).imp fun {p q} hne => ?_
    refine List.disjoint_left.mpr fun {x} hp hq => ?_
    obtain ⟨c, hc, rfl⟩ := List.mem_map.mp hp
    obtain ⟨d, hd, hplace⟩ := List.mem_map.mp hq
    refine hne ?_
    rw [← path_of_mem hc, ← path_of_mem hd]
    exact (congrArg Prod.fst hplace).symm

theorem mem_map_place {x : String × String} :
    x ∈ (kept log).map place ↔ x ∈ log.map place := by
  constructor
  · intro h
    obtain ⟨c, hc, rfl⟩ := List.mem_map.mp h
    have hlast := List.mem_of_getLast? (mem_kept.mp hc)
    exact List.mem_map_of_mem (List.mem_filter.mp hlast).1
  · intro h
    obtain ⟨c, hc, rfl⟩ := List.mem_map.mp h
    have hne : log.filter (·.place = c.place) ≠ [] :=
      List.ne_nil_of_mem (List.mem_filter.mpr ⟨hc, by simp⟩)
    obtain ⟨d, hd⟩ := Option.ne_none_iff_exists'.mp (mt List.getLast?_eq_none_iff.mp hne)
    have hplace : d.place = c.place := by
      simpa using (List.mem_filter.mp (List.mem_of_getLast? hd)).2
    rw [← hplace] at hd ⊢
    exact List.mem_map_of_mem (mem_kept.mpr hd)

/-- As many are left as there are different places. -/
theorem length_kept (log : List Stored) :
    (kept log).length = (log.map place).toFinset.card := by
  have hsame : (log.map place).toFinset = ((kept log).map place).toFinset := by
    ext x
    rw [List.mem_toFinset, List.mem_toFinset, mem_map_place]
  rw [hsame, List.toFinset_card_of_nodup (nodup_kept log), List.length_map]

/-- What is left for the paths with a property. -/
theorem filter_kept (p : String → Bool) :
    (kept log).filter (p ·.path) =
      ((paths log).filter p).flatMap fun path => latest (log.filter (·.path = path)) := by
  unfold kept
  induction paths log with
  | nil => rfl
  | cons path ps ih =>
    rw [List.flatMap_cons, List.filter_append, ih]
    by_cases hp : p path = true
    · have hall : (latest (log.filter (·.path = path))).filter (p ·.path) =
          latest (log.filter (·.path = path)) :=
        List.filter_eq_self.mpr fun c hc => path_of_mem hc ▸ hp
      rw [hall, List.filter_cons_of_pos hp, List.flatMap_cons]
    · have hnone : (latest (log.filter (·.path = path))).filter (p ·.path) = [] :=
        List.filter_eq_nil_iff.mpr fun c hc => path_of_mem hc ▸ hp
      rw [hnone, List.filter_cons_of_neg hp, List.nil_append]

end Stored

/-! ## Jars -/

namespace CookieJar

open Stored

/-- The jar that a row of cookies makes of an empty one. -/
def ofLog (log : List Stored) : CookieJar :=
  log.foldl (fun jar c => jar.insert c.path c.name c.value) empty

theorem ofLog_concat (log : List Stored) (c : Stored) :
    ofLog (log ++ [c]) = (ofLog log).insert c.path c.name c.value := by
  unfold ofLog
  rw [List.foldl_append]
  rfl

/-- Shelving, where the shelves are given by their paths. -/
theorem shelve_map {path name value : String} {ps : List String} (hps : ps.Nodup)
    {f : String → List (String × String)} (hf : path ∉ ps → f path = []) :
    shelve path name value (ps.map fun p => (p, f p)) =
      (if path ∈ ps then ps else ps ++ [path]).map fun p =>
        (p, if p = path then replace name value (f p) else f p) := by
  induction ps with
  | nil => simp [shelve, replace, hf List.not_mem_nil]
  | cons q ps ih =>
    obtain ⟨hq, hps⟩ := List.nodup_cons.mp hps
    rw [List.map_cons, shelve]
    by_cases hpath : q = path
    · subst hpath
      have hothers : ∀ p ∈ ps,
          (p, f p) = (p, if p = q then replace name value (f p) else f p) := by
        intro p hp
        rw [if_neg fun h : p = q => hq (h ▸ hp)]
      rw [if_pos rfl, if_pos List.mem_cons_self, List.map_cons, if_pos rfl,
        List.map_congr_left hothers]
    · have hmem : path ∈ q :: ps ↔ path ∈ ps := by simp [Ne.symm hpath]
      rw [if_neg hpath, ih hps fun h => hf (mt hmem.mp h)]
      by_cases hin : path ∈ ps
      · rw [if_pos hin, if_pos (hmem.mpr hin), List.map_cons, if_neg hpath]
      · rw [if_neg hin, if_neg (mt hmem.mp hin), List.cons_append, List.map_cons, if_neg hpath]

/-- **The shelves of a jar**, read off the cookies that were stored in it. -/
theorem shelves_ofLog (log : List Stored) :
    (ofLog log).shelves =
      (paths log).map fun p => (p, (latest (log.filter (·.path = p))).map pair) := by
  induction log using List.reverseRecOn with
  | nil => rfl
  | append_singleton log c ih =>
    have hempty : c.path ∉ paths log →
        (latest (log.filter (·.path = c.path))).map pair = [] := by
      intro hnew
      have hnone : log.filter (·.path = c.path) = [] := by
        refine List.filter_eq_nil_iff.mpr fun d hd => ?_
        simpa using fun h => hnew (mem_paths.mpr ⟨d, hd, h⟩)
      rw [hnone]
      rfl
    rw [ofLog_concat, insert]
    dsimp only
    rw [ih, shelve_map (nodup_paths log) hempty, paths_concat]
    refine List.map_congr_left fun p _ => ?_
    rw [List.filter_append]
    by_cases hp : c.path = p
    · subst hp
      have hlast : [c].filter (·.path = c.path) = [c] := by simp
      rw [if_pos rfl, hlast, latest_concat, List.map_append, replace, List.filter_map]
      rfl
    · have hnone : [c].filter (·.path = p) = [] := by simp [hp]
      rw [if_neg (Ne.symm hp), hnone, List.append_nil]

/-- What a jar sends with a path. -/
theorem cookiesFor_ofLog (log : List Stored) (path : String) :
    (ofLog log).cookiesFor path =
      ((kept log).filter fun c => c.path.toList <+: path.toList).map pair := by
  have hprefix : ∀ p : String,
      p.toList.isPrefixOf path.toList = decide (p.toList <+: path.toList) := by
    intro p
    rw [Bool.eq_iff_iff, List.isPrefixOf_iff_prefix, decide_eq_true_eq]
  unfold cookiesFor
  rw [filter_kept fun p => decide (p.toList <+: path.toList), shelves_ofLog, List.filter_map,
    List.flatMap_map, List.map_flatMap]
  refine congrArg₂ List.flatMap rfl ?_
  exact List.filter_congr fun p _ => hprefix p

theorem size_ofLog (log : List Stored) : (ofLog log).size = (log.map place).toFinset.card := by
  rw [← length_kept, size, shelves_ofLog, List.flatMap_map]
  unfold kept
  simp [List.length_flatMap]

theorem foldl_put (root : String) (log : List Stored) (cookies : List Cookie) :
    cookies.foldl (put root) (ofLog log) = ofLog (log ++ cookies.map (ofCookie root)) := by
  unfold ofLog
  rw [List.foldl_append, List.foldl_map]
  rfl

end CookieJar

/-! ## Operations -/

/-- What is done to a jar. -/
inductive JarStep where
  | insert (path name value : String)
  /-- Stores what a field holds that came for the part of the site under `root`. -/
  | store (root field : String)
  | storeAll (root : String) (fields : List String)
  /-- Takes all cookies out. -/
  | clear
deriving DecidableEq

/-- The cookies that a step stores. -/
def JarStep.stored : JarStep → List Stored
  | insert path name value => [⟨path, name, value⟩]
  | store root field => ((Cookie.parse? field).map (Stored.ofCookie root)).toList
  | storeAll root fields => (fields.filterMap Cookie.parse?).map (Stored.ofCookie root)
  | clear => []

/-- The cookies that were stored since the last time that the jar was emptied. -/
def JarStep.log (steps : List JarStep) : List Stored :=
  (steps.rtakeWhile (· ≠ .clear)).flatMap stored

namespace CookieJar

/-- One step. -/
def step (jar : CookieJar) : JarStep → CookieJar
  | .insert path name value => jar.insert path name value
  | .store root field => (jar.store root field).1
  | .storeAll root fields => (jar.storeAll root fields).1
  | .clear => .empty

/-- A row of steps. -/
def run (jar : CookieJar) (steps : List JarStep) : CookieJar := steps.foldl step jar

/-- A step that empties no jar adds the cookies that it stores. -/
theorem step_ofLog (log : List Stored) {step : JarStep} (h : step ≠ .clear) :
    (ofLog log).step step = ofLog (log ++ step.stored) := by
  cases step with
  | insert path name value => exact (ofLog_concat log ⟨path, name, value⟩).symm
  | store root field =>
    rw [CookieJar.step, JarStep.stored, store]
    cases Cookie.parse? field with
    | none => simp
    | some c =>
      dsimp only [Option.map_some, Option.toList_some]
      rw [placeOf_eq, ofLog_concat]
      rfl
  | storeAll root fields =>
    rw [CookieJar.step, storeAll_eq, foldl_put]
    rfl
  | clear => exact absurd rfl h

/-- **A jar after any steps**: what was stored since it was last emptied, and nothing else. -/
theorem run_eq (steps : List JarStep) : empty.run steps = ofLog (JarStep.log steps) := by
  unfold run JarStep.log
  induction steps using List.reverseRecOn with
  | nil => rfl
  | append_singleton steps step ih =>
    rw [List.foldl_append, ih, List.foldl_cons, List.foldl_nil]
    by_cases hclear : step = .clear
    · subst hclear
      rw [List.rtakeWhile_concat_neg _ _ _ (by simp)]
      rfl
    · rw [List.rtakeWhile_concat_pos _ _ _ (by simpa using hclear), List.flatMap_append,
        step_ofLog _ hclear, List.flatMap_singleton]

end CookieJar

/-- **The replay of cookies follows their history.**  After any operations on an empty jar, let
    `kept` be what is left of the cookies stored since it was last emptied: the paths in the order
    of their first cookies, and for each path the latest cookie of each name, in order.  The
    `Cookie` field for a path has those of them whose path is a prefix of it, and is missing exactly
    if there is none.  The size of the jar is the number of different paths and names that were
    stored.  Nothing is kept twice, and the last cookie of every path and name is. -/
theorem replay_follows_log (steps : List JarStep) (path : String) :
    let jar := CookieJar.empty.run steps
    let log := JarStep.log steps
    let kept := (log.map (·.path)).eraseDups.flatMap fun p =>
      Stored.latest (log.filter (·.path = p))
    let replayed := kept.filter fun c => c.path.toList <+: path.toList
    (replayed ≠ [] → jar.headerFor path =
      some ("; ".intercalate (replayed.map fun c => c.name ++ "=" ++ c.value))) ∧
    (jar.headerFor path = none ↔ replayed = []) ∧
    jar.size = (log.map fun c => (c.path, c.name)).toFinset.card ∧
    (kept.map fun c => (c.path, c.name)).Nodup ∧
    ∀ c, c ∈ kept ↔
      (log.filter fun d => (d.path, d.name) = (c.path, c.name)).getLast? = some c := by
  intro jar log kept replayed
  have hjar : jar = .ofLog log := CookieJar.run_eq steps
  have hcookies : jar.cookiesFor path = replayed.map Stored.pair := by
    rw [hjar]
    exact CookieJar.cookiesFor_ofLog log path
  have hheader : jar.headerFor path =
      if replayed = [] then none
      else some ("; ".intercalate (replayed.map fun c => c.name ++ "=" ++ c.value)) := by
    rw [CookieJar.headerFor_eq, hcookies, Cookie.write, List.map_map]
    simp only [List.map_eq_nil_iff]
    rfl
  refine ⟨fun hne => ?_, ?_, ?_, Stored.nodup_kept log, fun c => Stored.mem_kept⟩
  · rw [hheader, if_neg hne]
  · rw [hheader]
    by_cases hr : replayed = []
    · simp [hr]
    · simp [hr]
  · rw [hjar]
    exact CookieJar.size_ofLog log

example : (CookieJar.empty.run
    [.clear, .store "/" "a=1", .store "/" "b=2; Path=", .insert "/x" "a" "4", .store "/" "a=3"]
    ).headerFor "/x/y" = some "b=2; a=3; a=4" := by
  decide +kernel

end AccessGateway

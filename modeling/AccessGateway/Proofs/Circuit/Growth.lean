import AccessGateway.Proofs.Circuit.CircuitBoard
import Mathlib.Data.List.Nodup

/-!
# One breaker for each target

A breaker is made when its target is first used, behind all others, and is never taken away.  So it
has a place in the registry by which it can be told from every other one, and it is what everybody
finds who looks for its target from then on.

## Results

* `Breaker.resolve_createdAt` — no operation makes a breaker anew.
* `Breakers.Grows` — a breaker that was made stays at its place, and no target gets a second one;
  `Grows.get`, `Grows.acquire`, `Grows.takeBack` — for each operation.
* `Breakers.Grows.entry` — what was made at a place is what later look-ups hand out.
* `CircuitBoard.grows_run`, `CircuitBoard.nodup_targets` — for every run.
-/

set_option autoImplicit false

namespace AccessGateway

/-! ## Breakers stay themselves -/

namespace Breaker

variable {s : BreakerSettings} {now : Instant}

theorem tryAcquire_createdAt (b : Breaker) :
    (b.tryAcquire s now).1.createdAt = b.createdAt := by
  rcases h : b.tryAcquire s now with ⟨b', permit⟩
  obtain ⟨-, rfl, -⟩ | ⟨-, rfl, -⟩ | ⟨-, -, rfl, -⟩ | ⟨-, -, rfl, -⟩ := tryAcquire_cases h <;> rfl

@[simp] theorem endTrial_createdAt (b : Breaker) (next : CircuitState) :
    (b.endTrial next).createdAt = b.createdAt := by
  unfold endTrial
  split <;> rfl

@[simp] theorem markOpened_createdAt (b : Breaker) : (b.markOpened now).createdAt = b.createdAt :=
  rfl

theorem onSuccess_createdAt (b : Breaker) (p : Permit) :
    (b.onSuccess p).createdAt = b.createdAt := by
  unfold onSuccess
  split
  · exact endTrial_createdAt _ _
  · split <;> rfl

theorem onFailure_createdAt (b : Breaker) (p : Permit) :
    (b.onFailure s p now).createdAt = b.createdAt := by
  unfold onFailure
  split
  · simp
  · dsimp only
    split <;> rfl

theorem resolve_createdAt (b : Breaker) (p : Permit) (outcome : Option Bool) :
    (b.resolve s p outcome now).createdAt = b.createdAt := by
  match outcome with
  | some true => exact onSuccess_createdAt b p
  | some false => exact onFailure_createdAt b p
  | none =>
    unfold resolve onAbandoned
    dsimp only
    split
    · simp
    · rfl

end Breaker

namespace Breakers

variable {r r' r'' : Breakers} {t target : String} {b : Breaker} {now : Instant}

/-- Every breaker of `r` is in `r'` too, at the same place, and no target has a second one. -/
structure Grows (r r' : Breakers) : Prop where
  places : r.targets <+: r'.targets
  once : r.targets.Nodup → r'.targets.Nodup
  kept : ∀ t b, r.find? t = some b → ∃ b', r'.find? t = some b' ∧ b'.createdAt = b.createdAt

theorem Grows.refl (r : Breakers) : r.Grows r :=
  ⟨List.prefix_refl _, id, fun _ b h => ⟨b, h, rfl⟩⟩

theorem Grows.trans (h : r.Grows r') (h' : r'.Grows r'') : r.Grows r'' := by
  refine ⟨h.places.trans h'.places, fun hd => h'.once (h.once hd), fun t b hb => ?_⟩
  obtain ⟨b', hb', hcreated⟩ := h.kept t b hb
  obtain ⟨b'', hb'', hcreated'⟩ := h'.kept t b' hb'
  exact ⟨b'', hb'', hcreated'.trans hcreated⟩

/-- A registry grows by what is done with one breaker. -/
theorem Grows.of_puts (hp : r.Puts target b r')
    (hb : b.createdAt = (r.get target now).2.createdAt) : r.Grows r' := by
  refine ⟨?_, fun hd => ?_, fun u old hold => ?_⟩
  · rw [hp.targets]
    split
    · exact List.prefix_refl _
    · exact List.prefix_append _ _
  · rw [hp.targets]
    split
    · exact hd
    · rename_i hnew
      exact List.nodup_append.mpr ⟨hd, List.nodup_singleton _, fun a ha b hb hab =>
        hnew (List.mem_singleton.mp hb ▸ hab ▸ ha)⟩
  · rw [hp.found]
    by_cases hu : u = target
    · subst hu
      have hget : (r.get u now).2 = old := by rw [get_snd, hold, Option.getD_some]
      exact ⟨b, if_pos rfl, hb.trans (congrArg _ hget)⟩
    · exact ⟨old, by rw [if_neg hu, hold], rfl⟩

theorem Grows.get (r : Breakers) (target : String) (now : Instant) :
    r.Grows (r.get target now).1 :=
  .of_puts (puts_get r target now) rfl

theorem Grows.acquire (r : Breakers) (target : String) (now : Instant) :
    r.Grows (r.acquire target now).1 :=
  .of_puts (puts_acquire r target now) (Breaker.tryAcquire_createdAt _)

theorem Grows.takeBack (r : Breakers) (p : TargetPermit) (outcome : Option Bool) (now : Instant) :
    r.Grows (r.takeBack p outcome now).1 :=
  .of_puts (puts_takeBack r p outcome now) (Breaker.resolve_createdAt _ _ _)

/-! ### Places -/

theorem getElem?_targets (r : Breakers) (i : Nat) :
    r.targets[i]? = (r.entries[i]?).map (·.1) := List.getElem?_map

/-- The breaker that is found for a target stands at the target's place. -/
theorem entry_of_find? (hd : r.targets.Nodup) {i : Nat} (hi : r.targets[i]? = some t)
    (h : r.find? t = some b) : r.entries[i]? = some (t, b) := by
  unfold find? at h
  obtain ⟨⟨t', b'⟩, hfound, rfl⟩ := Option.map_eq_some_iff.mp h
  have htarget : t' = t := by simpa using List.find?_some hfound
  subst htarget
  obtain ⟨j, hj⟩ := List.mem_iff_getElem?.mp (List.mem_of_find?_eq_some hfound)
  have hplace : r.targets[j]? = some t' := by rw [getElem?_targets, hj]; rfl
  have hlt : j < r.targets.length := (List.getElem?_eq_some_iff.mp hplace).1
  rw [← (List.getElem?_inj hlt hd).mp (hplace.trans hi.symm), hj]

theorem find?_of_entry (hd : r.targets.Nodup) {i : Nat} (h : r.entries[i]? = some (t, b)) :
    r.find? t = some b := by
  have hi : r.targets[i]? = some t := by rw [getElem?_targets, h]; rfl
  cases hf : r.find? t with
  | none => exact absurd (List.mem_of_getElem? hi) (find?_eq_none.mp hf)
  | some b' =>
    rw [entry_of_find? hd hi hf] at h
    cases h
    rfl

/-- A breaker that was made stays at its place, and is what later look-ups find. -/
theorem Grows.entry (h : r.Grows r') (hd : r.targets.Nodup) {i : Nat}
    (hi : r.entries[i]? = some (t, b)) :
    ∃ b', r'.entries[i]? = some (t, b') ∧ b'.createdAt = b.createdAt ∧
      ∀ now, r'.get t now = (r', b') := by
  obtain ⟨b', hb', hcreated⟩ := h.kept t b (find?_of_entry hd hi)
  have hplace : r.targets[i]? = some t := by rw [getElem?_targets, hi]; rfl
  obtain ⟨hlt, htarget⟩ := List.getElem?_eq_some_iff.mp hplace
  have hplace' : r'.targets[i]? = some t := by
    rw [List.prefix_iff_getElem?.mp h.places i hlt, htarget]
  refine ⟨b', entry_of_find? (h.once hd) hplace' hb', hcreated, fun now => ?_⟩
  unfold Breakers.get
  rw [hb']

/-- What is handed out is an entry of the registry. -/
theorem entry_get (hd : r.targets.Nodup) (target : String) (now : Instant) :
    ∃ i : Nat, (r.get target now).1.entries[i]? = some (target, (r.get target now).2) := by
  have hfound : (r.get target now).1.find? target = some (r.get target now).2 := by
    rw [find?_get, if_pos rfl]
  have hmem : target ∈ (r.get target now).1.targets := by
    by_contra hnone
    rw [find?_eq_none.mpr hnone] at hfound
    cases hfound
  obtain ⟨i, hi⟩ := List.mem_iff_getElem?.mp hmem
  exact ⟨i, entry_of_find? ((Grows.get r target now).once hd) hi hfound⟩

end Breakers

namespace CircuitBoard

variable {ε α : Type}

theorem grows_release (c : CircuitBoard) (place : Nat) (outcome : Option Bool) :
    c.breakers.Grows
      (c.release place outcome : _ × List (String × BoardAnswer ε α) × _).1.breakers := by
  unfold release
  split
  · exact .refl _
  · exact .takeBack ..

theorem grows_step (c : CircuitBoard) (e : BoardStep ε α) :
    c.breakers.Grows (c.step e).1.breakers := by
  cases e with
  | get target => exact .get ..
  | acquire place target =>
    have hasked := Breakers.Grows.acquire c.breakers target c.now
    cases ha : (c.breakers.acquire target c.now).2.1 with
    | none =>
      rw [step_acquire_none rfl ha]
      exact hasked
    | some p =>
      rw [step_acquire_some rfl ha]
      exact hasked.trans (grows_release (ε := ε) (α := α)
        { c with breakers := (c.breakers.acquire target c.now).1 } place none)
  | record place success => exact grows_release c place (some success)
  | drop place => exact grows_release c place none
  | call target span outcome isFailure =>
    rw [step_call]
    have hasked := Breakers.Grows.acquire c.breakers target c.now
    dsimp only
    split
    · exact hasked
    · exact hasked.trans (.takeBack ..)
  | sleep span => exact .refl _

theorem grows_run (c : CircuitBoard) (steps : List (BoardStep ε α)) :
    c.breakers.Grows (c.run steps).breakers := by
  induction steps generalizing c with
  | nil => exact .refl _
  | cons e es ih => exact (grows_step c e).trans (ih _)

theorem nodup_targets (settings : BreakerSettings) (t₀ : Instant) (steps : List (BoardStep ε α)) :
    ((start settings t₀).run steps).breakers.targets.Nodup :=
  (grows_run (start settings t₀) steps).once List.nodup_nil

end CircuitBoard

end AccessGateway

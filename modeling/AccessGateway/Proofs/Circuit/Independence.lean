import AccessGateway.Proofs.Circuit.Growth

/-!
# Breakers of different targets

What is done with the breakers of other targets is, for one target, nothing but time that goes by.
`CircuitBoard.isolate` leaves of a row of steps what one target sees of it; the run of what is left
keeps step with the whole run.

## Results

* `CircuitBoard.Reduces` — a board beside one on which nothing but one target is used;
  `Reduces.step`, `Reduces.run` — one step, and a row of steps.
* `breakers_independent` — every run, with the breaker of a target being one and the same in it.
-/

set_option autoImplicit false

namespace AccessGateway

/-! ## One target by itself -/

namespace Breakers

/-- `r'` is what `r` would be if nothing but the target `t` were used. -/
structure Reduces (t : String) (r r' : Breakers) : Prop where
  settings : r'.settings = r.settings
  found : r'.find? t = r.find? t
  others : ∀ target, target ≠ t → r'.find? target = none

variable {t target : String} {r r' r₁ r₁' : Breakers} {b : Breaker} {now : Instant}

/-- The same change of the target's breaker on both sides. -/
theorem Reduces.changed (h : Reduces t r r') (hp : r.Puts t b r₁) (hp' : r'.Puts t b r₁') :
    Reduces t r₁ r₁' := by
  refine ⟨?_, ?_, fun target hne => ?_⟩
  · rw [hp'.settings, h.settings, hp.settings]
  · rw [hp.found, hp'.found, if_pos rfl, if_pos rfl]
  · rw [hp'.found, if_neg hne, h.others target hne]

/-- A change of another target's breaker is not seen. -/
theorem Reduces.unseen (h : Reduces t r r') (hne : target ≠ t) (hp : r.Puts target b r₁) :
    Reduces t r₁ r' := by
  refine ⟨?_, ?_, h.others⟩
  · rw [h.settings, hp.settings]
  · rw [hp.found, if_neg (Ne.symm hne), h.found]

theorem Reduces.get_eq (h : Reduces t r r') (now : Instant) :
    (r'.get t now).2 = (r.get t now).2 := by
  rw [get_snd, get_snd, h.found]

theorem Reduces.get (h : Reduces t r r') (now : Instant) :
    Reduces t (r.get t now).1 (r'.get t now).1 := by
  have hp' := puts_get r' t now
  rw [h.get_eq] at hp'
  exact h.changed (puts_get r t now) hp'

theorem Reduces.get_other (h : Reduces t r r') (hne : target ≠ t) (now : Instant) :
    Reduces t (r.get target now).1 r' :=
  h.unseen hne (puts_get r target now)

theorem Reduces.acquire (h : Reduces t r r') (now : Instant) :
    Reduces t (r.acquire t now).1 (r'.acquire t now).1 := by
  have hp' := puts_acquire r' t now
  rw [h.get_eq, h.settings] at hp'
  exact h.changed (puts_acquire r t now) hp'

theorem Reduces.acquire_other (h : Reduces t r r') (hne : target ≠ t) (now : Instant) :
    Reduces t (r.acquire target now).1 r' :=
  h.unseen hne (puts_acquire r target now)

theorem Reduces.permit_eq (h : Reduces t r r') (now : Instant) :
    (r'.acquire t now).2.1 = (r.acquire t now).2.1 := by
  rw [acquire_permit, acquire_permit, h.get_eq, h.settings]

theorem Reduces.takeBack (h : Reduces t r r') {p : TargetPermit} (hp : p.target = t)
    (outcome : Option Bool) (now : Instant) :
    Reduces t (r.takeBack p outcome now).1 (r'.takeBack p outcome now).1 := by
  subst hp
  have hp' := puts_takeBack r' p outcome now
  rw [h.get_eq, h.settings] at hp'
  exact h.changed (puts_takeBack r p outcome now) hp'

theorem Reduces.takeBack_other (h : Reduces t r r') {p : TargetPermit} (hp : p.target ≠ t)
    (outcome : Option Bool) (now : Instant) : Reduces t (r.takeBack p outcome now).1 r' :=
  h.unseen hp (puts_takeBack r p outcome now)

end Breakers

namespace CircuitBoard

variable {ε α : Type} {t target : String} {c c' d : CircuitBoard} {place : Nat}

/-- A permit for the target is held at a place. -/
def holds (c : CircuitBoard) (place : Nat) (t : String) : Bool :=
  (c.held place).any (·.target = t)

/-- What a target sees of a step: what is for others is the time that it takes.  If a permit of the
    target is dropped since its place is taken by another, that is what is left of the step. -/
def seenBy (t : String) (c : CircuitBoard) (e : BoardStep ε α) : BoardStep ε α :=
  let passed : BoardStep ε α := .sleep ((c.step e).1.now - c.now)
  match e with
  | .get target => if target = t then e else passed
  | .acquire place target =>
    if target = t then e
    else if (c.breakers.acquire target c.now).2.1.isSome ∧ c.holds place t then .drop place
    else passed
  | .record place _ => if c.holds place t then e else passed
  | .drop place => if c.holds place t then e else passed
  | .call target _ _ _ => if target = t then e else passed
  | .sleep _ => e

/-- What a target sees of a row of steps. -/
def isolate (t : String) (c : CircuitBoard) : List (BoardStep ε α) → List (BoardStep ε α)
  | [] => []
  | e :: es => c.seenBy t e :: isolate t (c.step e).1 es

/-- `c'` is what `c` would be if nothing but the target `t` were used. -/
structure Reduces (t : String) (c c' : CircuitBoard) : Prop where
  breakers : c.breakers.Reduces t c'.breakers
  now : c'.now = c.now
  held : ∀ place, c'.held place = (c.held place).filter (·.target = t)

theorem reduces_start (t : String) (settings : BreakerSettings) (t₀ : Instant) :
    (start settings t₀).Reduces t (start settings t₀) :=
  ⟨⟨rfl, rfl, fun _ _ => rfl⟩, rfl, fun _ => rfl⟩

/-! ### Permits that are held -/

theorem filter_mine {p : TargetPermit} (hp : p.target = t) :
    (some p).filter (·.target = t) = some p := by simp [hp]

theorem filter_other {p : TargetPermit} (hp : p.target ≠ t) :
    (some p).filter (·.target = t) = none := by simp [hp]

theorem Reduces.held_none (h : c.Reduces t c') (hmine : ¬c.holds place t = true) :
    c'.held place = none := by
  unfold holds at hmine
  rw [h.held, Option.filter_eq_none_iff]
  intro p hp
  rw [hp] at hmine
  simpa using hmine

/-- Nothing comes of a place at which the target holds nothing. -/
theorem Reduces.release_none (h : c.Reduces t c') (hmine : ¬c.holds place t = true)
    (outcome : Option Bool) : (c'.release place outcome : _ × List (String × BoardAnswer ε α) × _) =
      (c', [], []) := by
  unfold release
  rw [h.held_none hmine]

theorem release_now (c : CircuitBoard) (place : Nat) (outcome : Option Bool) :
    (c.release place outcome : _ × List (String × BoardAnswer ε α) × _).1.now = c.now := by
  unfold release
  split <;> rfl

theorem release_held_self (c : CircuitBoard) (place : Nat) (outcome : Option Bool) :
    (c.release place outcome : _ × List (String × BoardAnswer ε α) × _).1.held place = none := by
  unfold release
  split
  · rename_i h
    exact h
  · exact Function.update_self ..

/-- A place is emptied on both sides. -/
theorem Reduces.release (h : c.Reduces t c') (place : Nat) (outcome : Option Bool) :
    let x := (c.release place outcome : _ × List (String × BoardAnswer ε α) × _)
    let x' := (c'.release place outcome : _ × List (String × BoardAnswer ε α) × _)
    x.1.Reduces t x'.1 ∧ x'.2.1 = x.2.1.filter (·.1 = t) := by
  have hempty : ∀ q, Function.update c'.held place none q =
      (Function.update c.held place none q).filter (·.target = t) := by
    intro q
    by_cases hq : q = place
    · rw [hq, Function.update_self, Function.update_self]
      rfl
    · rw [Function.update_of_ne hq, Function.update_of_ne hq, h.held]
  unfold CircuitBoard.release
  rw [h.held]
  cases hp : c.held place with
  | none => exact ⟨h, rfl⟩
  | some p =>
    by_cases hmine : p.target = t
    · rw [filter_mine hmine, h.now]
      refine ⟨⟨h.breakers.takeBack hmine outcome c.now, rfl, hempty⟩, ?_⟩
      simp [hmine]
    · rw [filter_other hmine]
      refine ⟨⟨h.breakers.takeBack_other hmine outcome c.now, h.now, fun q => ?_⟩, ?_⟩
      · -- the other side holds nothing at this place anyhow
        by_cases hq : q = place
        · subst hq
          dsimp only
          rw [Function.update_self, h.held, hp, filter_other hmine]
          rfl
        · dsimp only
          rw [Function.update_of_ne hq, h.held]
      · simp [hmine]

/-- A permit of the target is held on both sides. -/
theorem Reduces.hold (h : c.Reduces t c') {p : TargetPermit} (hp : p.target = t) (place : Nat) :
    Reduces t { c with held := Function.update c.held place (some p) }
      { c' with held := Function.update c'.held place (some p) } := by
  refine ⟨h.breakers, h.now, fun q => ?_⟩
  dsimp only
  by_cases hq : q = place
  · rw [hq, Function.update_self, Function.update_self, filter_mine hp]
  · rw [Function.update_of_ne hq, Function.update_of_ne hq, h.held]

/-- A permit of another target is held at a place where the target holds nothing. -/
theorem Reduces.hold_other (h : c.Reduces t c') {p : TargetPermit} (hp : p.target ≠ t)
    (hplace : c'.held place = none) :
    Reduces t { c with held := Function.update c.held place (some p) } c' := by
  refine ⟨h.breakers, h.now, fun q => ?_⟩
  dsimp only
  by_cases hq : q = place
  · rw [hq, Function.update_self, hplace, filter_other hp]
  · rw [Function.update_of_ne hq, h.held]

/-! ### Steps -/

/-- The target lets the time of a step for another target pass. -/
theorem Reduces.passed (h : Reduces t { d with now := c.now } c') (hle : c.now ≤ d.now) :
    d.Reduces t (c'.step (.sleep (d.now - c.now) : BoardStep ε α)).1 := by
  refine ⟨h.breakers, ?_, h.held⟩
  have hnow : c'.now = c.now := h.now
  show c'.now + (d.now - c.now) = d.now
  rw [hnow, Nat.add_sub_cancel' hle]

theorem Reduces.step_get (h : c.Reduces t c') (target : String) :
    let e : BoardStep ε α := .get target
    (c.step e).1.Reduces t (c'.step (c.seenBy t e)).1 ∧
      (c'.step (c.seenBy t e)).2.1 = (c.step e).2.1.filter (·.1 = t) := by
  intro e
  by_cases ht : target = t
  · subst ht
    have hsame : c.seenBy target e = e := if_pos rfl
    rw [hsame]
    simp only [e, step]
    rw [h.now]
    refine ⟨⟨h.breakers.get c.now, rfl, h.held⟩, ?_⟩
    rw [h.breakers.get_eq]
    simp
  · have hpassed : c.seenBy t e = .sleep ((c.step e).1.now - c.now) := if_neg ht
    rw [hpassed]
    refine ⟨Reduces.passed ⟨h.breakers.get_other ht c.now, h.now, h.held⟩ (Nat.le_refl _), ?_⟩
    simp [e, step, ht]

theorem Reduces.step_acquire (h : c.Reduces t c') (place : Nat) :
    let e : BoardStep ε α := .acquire place t
    (c.step e).1.Reduces t (c'.step e).1 ∧
      (c'.step e).2.1 = (c.step e).2.1.filter (·.1 = t) := by
  intro e
  have hpermit : (c'.breakers.acquire t c'.now).2.1 = (c.breakers.acquire t c.now).2.1 := by
    rw [h.now, h.breakers.permit_eq]
  have hasked : Reduces t { c with breakers := (c.breakers.acquire t c.now).1 }
      { c' with breakers := (c'.breakers.acquire t c'.now).1 } := by
    refine ⟨?_, h.now, h.held⟩
    dsimp only
    rw [h.now]
    exact h.breakers.acquire c.now
  cases ha : (c.breakers.acquire t c.now).2.1 with
  | none =>
    rw [ha] at hpermit
    rw [step_acquire_none rfl ha, step_acquire_none rfl hpermit]
    exact ⟨hasked, by simp⟩
  | some p =>
    rw [ha] at hpermit
    rw [step_acquire_some rfl ha, step_acquire_some rfl hpermit]
    obtain ⟨hreleased, hanswers⟩ := hasked.release (ε := ε) (α := α) place none
    refine ⟨hreleased.hold (Breakers.target_of_acquire ha) place, ?_⟩
    dsimp only
    rw [hanswers]
    simp

theorem Reduces.step_acquire_other (h : c.Reduces t c') (place : Nat) (hne : target ≠ t) :
    let e : BoardStep ε α := .acquire place target
    (c.step e).1.Reduces t (c'.step (c.seenBy t e)).1 ∧
      (c'.step (c.seenBy t e)).2.1 = (c.step e).2.1.filter (·.1 = t) := by
  intro e
  have hasked : Reduces t { c with breakers := (c.breakers.acquire target c.now).1 } c' :=
    ⟨h.breakers.acquire_other hne c.now, h.now, h.held⟩
  cases ha : (c.breakers.acquire target c.now).2.1 with
  | none =>
    have hpassed : c.seenBy t e = .sleep ((c.step e).1.now - c.now) := by
      simp [e, seenBy, hne, ha]
    rw [hpassed]
    have hstep := step_acquire_none (e := e) rfl ha
    rw [hstep]
    exact ⟨Reduces.passed hasked (Nat.le_refl _), by simp [step, hne]⟩
  | some p =>
    have hstep := step_acquire_some (e := e) rfl ha
    have hp : p.target ≠ t := (Breakers.target_of_acquire ha).symm ▸ hne
    obtain ⟨hreleased, hanswers⟩ := hasked.release (ε := ε) (α := α) place none
    have hheld := hreleased.hold_other hp (release_held_self c' place none)
    by_cases hmine : c.holds place t = true
    · have hdropped : c.seenBy t e = .drop place := by simp [e, seenBy, hne, ha, hmine]
      rw [hdropped, hstep]
      refine ⟨hheld, hanswers.trans ?_⟩
      simp [hne]
    · have hpassed : c.seenBy t e = .sleep ((c.step e).1.now - c.now) := by
        simp [e, seenBy, hne, ha, hmine]
      have hnow : (c.step e).1.now = c.now := by
        rw [hstep]
        exact release_now (ε := ε) (α := α) _ place none
      rw [h.release_none hmine] at hheld hanswers
      refine ⟨?_, ?_⟩
      · rw [hpassed]
        refine Reduces.passed ?_ (Nat.le_of_eq hnow.symm)
        rw [← hnow, hstep]
        exact hheld
      · rw [hpassed, hstep]
        simp only [step, List.filter_cons, hne, decide_false, Bool.false_eq_true, if_false]
        exact hanswers

/-- What comes back with or without an outcome comes back on both sides, or is not seen. -/
theorem Reduces.step_release (h : c.Reduces t c') (place : Nat) (outcome : Option Bool)
    {e : BoardStep ε α} (he : ∀ c : CircuitBoard, c.step e = c.release place outcome)
    (hseen : c.seenBy t e = if c.holds place t then e else .sleep ((c.step e).1.now - c.now)) :
    (c.step e).1.Reduces t (c'.step (c.seenBy t e)).1 ∧
      (c'.step (c.seenBy t e)).2.1 = (c.step e).2.1.filter (·.1 = t) := by
  obtain ⟨hreleased, hanswers⟩ := h.release (ε := ε) (α := α) place outcome
  rw [hseen]
  by_cases hmine : c.holds place t = true
  · rw [if_pos hmine, he, he]
    exact ⟨hreleased, hanswers⟩
  · have hnow : (c.step e).1.now = c.now := by rw [he, release_now]
    rw [h.release_none hmine] at hreleased hanswers
    rw [if_neg hmine]
    refine ⟨Reduces.passed ?_ (Nat.le_of_eq hnow.symm), ?_⟩
    · rw [← hnow, he]
      exact hreleased
    · rw [he]
      exact hanswers

theorem Reduces.step_call (h : c.Reduces t c') (target : String) (span : Duration)
    (outcome : CallOutcome ε α) (isFailure : α → Bool) :
    let e : BoardStep ε α := .call target span outcome isFailure
    (c.step e).1.Reduces t (c'.step (c.seenBy t e)).1 ∧
      (c'.step (c.seenBy t e)).2.1 = (c.step e).2.1.filter (·.1 = t) := by
  intro e
  by_cases ht : target = t
  · subst ht
    have hsame : c.seenBy target e = e := if_pos rfl
    have hpermit := h.breakers.permit_eq c.now
    rw [hsame, CircuitBoard.step_call, CircuitBoard.step_call]
    dsimp only
    rw [h.now, hpermit, h.breakers.settings]
    cases ha : (c.breakers.acquire target c.now).2.1 with
    | none => exact ⟨⟨h.breakers.acquire c.now, rfl, h.held⟩, by simp⟩
    | some p =>
      have hp := Breakers.target_of_acquire ha
      exact ⟨⟨(h.breakers.acquire c.now).takeBack hp _ _, rfl, h.held⟩, by simp⟩
  · have hpassed : c.seenBy t e = .sleep ((c.step e).1.now - c.now) := if_neg ht
    have hasked := h.breakers.acquire_other ht c.now
    rw [hpassed, CircuitBoard.step_call]
    dsimp only
    cases ha : (c.breakers.acquire target c.now).2.1 with
    | none => exact ⟨Reduces.passed ⟨hasked, h.now, h.held⟩ (Nat.le_refl _), by simp [step, ht]⟩
    | some p =>
      have hp : p.target ≠ t := (Breakers.target_of_acquire ha).symm ▸ ht
      exact ⟨Reduces.passed ⟨hasked.takeBack_other hp _ _, h.now, h.held⟩ (Nat.le_add_right _ _),
        by simp [step, ht]⟩

/-- **One step**: the target sees it, or lets its time pass. -/
theorem Reduces.step (h : c.Reduces t c') (e : BoardStep ε α) :
    (c.step e).1.Reduces t (c'.step (c.seenBy t e)).1 ∧
      (c'.step (c.seenBy t e)).2.1 = (c.step e).2.1.filter (·.1 = t) := by
  cases e with
  | get target => exact h.step_get target
  | acquire place target =>
    by_cases ht : target = t
    · subst ht
      have hsame : c.seenBy target (.acquire place target : BoardStep ε α) =
        .acquire place target := if_pos rfl
      rw [hsame]
      exact h.step_acquire place
    · exact h.step_acquire_other place ht
  | record place success => exact h.step_release place (some success) (fun _ => rfl) rfl
  | drop place => exact h.step_release place none (fun _ => rfl) rfl
  | call target span outcome isFailure => exact h.step_call target span outcome isFailure
  | sleep span =>
    refine ⟨⟨h.breakers, ?_, h.held⟩, rfl⟩
    show c'.now + span = c.now + span
    rw [h.now]

/-- A row of steps. -/
theorem Reduces.run (h : c.Reduces t c') (steps : List (BoardStep ε α)) :
    (c.run steps).Reduces t (c'.run (isolate t c steps)) ∧
      c'.answers (isolate t c steps) = (c.answers steps).map (·.filter (·.1 = t)) := by
  induction steps generalizing c c' with
  | nil => exact ⟨h, rfl⟩
  | cons e es ih =>
    obtain ⟨hstep, hanswers⟩ := h.step e
    obtain ⟨hrun, hrest⟩ := ih hstep
    refine ⟨hrun, ?_⟩
    rw [isolate, answers, answers, List.map_cons, hanswers, hrest]

end CircuitBoard

/-- **Breakers of different targets are independent.**  In every run, a target has the breaker, and
    its callers get the answers, that they have in the run in which nothing is done with other
    targets and only the time that it took goes by.  And the breaker of a target is one and the same
    in all of the run: it stays at the place where it was made, no other breaker is made for the
    target, and every look-up hands it out. -/
theorem breakers_independent {ε α : Type} (settings : BreakerSettings) (t₀ : Instant) (t : String)
    (steps : List (BoardStep ε α)) :
    let start := CircuitBoard.start settings t₀
    let alone := CircuitBoard.isolate t start steps
    let last := start.run steps
    ((start.run alone).breakers.find? t = last.breakers.find? t ∧
      (start.run alone).now = last.now ∧
      start.answers alone = (start.answers steps).map (·.filter (·.1 = t)) ∧
      ∀ target, target ≠ t → (start.run alone).breakers.find? target = none) ∧
    (last.breakers.targets.Nodup ∧
      (∀ now, ∃ i : Nat, (last.breakers.get t now).1.entries[i]? =
        some (t, (last.breakers.get t now).2)) ∧
      ∀ before after (i : Nat) b, steps = before ++ after →
        (start.run before).breakers.entries[i]? = some (t, b) →
        ∃ b', last.breakers.entries[i]? = some (t, b') ∧ b'.createdAt = b.createdAt ∧
          ∀ now, last.breakers.get t now = (last.breakers, b')) := by
  intro start alone last
  obtain ⟨halone, hanswers⟩ := (CircuitBoard.reduces_start t settings t₀).run steps
  have honce : last.breakers.targets.Nodup := CircuitBoard.nodup_targets settings t₀ steps
  refine ⟨⟨halone.breakers.found, halone.now, hanswers, halone.breakers.others⟩,
    honce, Breakers.entry_get honce t, ?_⟩
  intro before after i b hsteps hi
  have hgrows : (start.run before).breakers.Grows last.breakers := by
    have hlast : last = (start.run before).run after := by
      rw [← CircuitBoard.run_append, ← hsteps]
    rw [hlast]
    exact CircuitBoard.grows_run _ after
  exact hgrows.entry (CircuitBoard.nodup_targets settings t₀ before) hi

end AccessGateway

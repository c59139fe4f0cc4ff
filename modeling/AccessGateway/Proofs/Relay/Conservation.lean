import AccessGateway.Proofs.Relay.Delivery

/-!
# What a pump keeps at every moment

A sink that reads to the end has the whole body.  This is what holds while the pump still runs,
after any row of steps of the task and of the sink.  As long as the sink is there, each delivery is
in one of four places: taken, in the channel, in the task's hand, or not read yet.  The channel is
never filled beyond its capacity, counting the place that the task has in it, so a sink that takes
nothing halts the source.  Once the sink left, the task reads one delivery more at most, and stops.

All this would hold of a pump that never moves as well, so the steps that do something are counted:
a row has only so many of them, and as long as the task goes on or the sink waits, some step is one.

## Results

* `PumpState.fits_run` — what is in the channel, and has a place in it.
* `PumpState.keeps_run` — what the sink has.
* `PumpState.forsaken_run` — what a task still does for a sink that left.
* `PumpState.changes_le`, `PumpState.Carries.exists_change` — how many steps do something, and that
  some step does.
* `pump_conserves` — what a pump keeps at every moment.
-/

set_option autoImplicit false

namespace AccessGateway

/-- A failure stands behind all frames of a body, and nothing stands behind it. -/
theorem Body.deliveries_failure {b : Body} {before after : List Delivery} {reason : String}
    (h : b.deliveries = before ++ .failure reason :: after) :
    before = b.frames.map .frame ∧ b.failure = some reason ∧ after = [] := by
  obtain rfl : after = [] := b.failsLast_deliveries before reason after h
  obtain ⟨frames, failure⟩ := b
  cases failure with
  | none =>
    have hmem : Delivery.failure reason ∈ Body.deliveries ⟨frames, none⟩ := by simp [h]
    simp [deliveries] at hmem
  | some last =>
    have hlast : frames.map Delivery.frame ++ [.failure last] = before ++ [.failure reason] := h
    obtain ⟨hframes, hreason⟩ := List.append_inj' hlast rfl
    cases hreason
    exact ⟨hframes.symm, rfl, rfl⟩

/-- How many places of the channel are reserved for the task. -/
def PumpTask.places : PumpTask → Nat
  | .reserved | .holding _ => 1
  | .waiting | .ended => 0

namespace PumpState

variable {all : List Delivery} {s t u : PumpState}

/-! ## Places -/

theorem occupied_eq (s : PumpState) : s.occupied = s.channel.length + s.task.places := by
  obtain ⟨source, task, channel, received, sinkDone, sinkClosed⟩ := s
  cases task <;> rfl

/-- What the task holds has its place. -/
theorem length_held_le (s : PumpState) : s.held.length ≤ s.task.places := by
  unfold held
  cases s.task <;> simp [PumpTask.places]

/-- What is in the channel and what the task has a place for fit into the channel, and nothing waits
    for a sink that left. -/
structure Fits (s : PumpState) : Prop where
  room : s.channel.length + s.task.places ≤ Pump.capacity
  emptied : s.sinkClosed = true → s.channel = []

theorem fits_start (all : List Delivery) : Fits (start all) := ⟨Nat.zero_le _, nofun⟩

theorem Fits.moves (h : Fits s) (hmoves : Moves s t) : Fits t := by
  obtain ⟨hroom, hemptied⟩ := h
  cases hmoves with
  | reserve htask _ hfree =>
    refine ⟨?_, hemptied⟩
    rw [occupied_eq, htask] at hfree
    exact hfree
  | read htask _ =>
    refine ⟨?_, hemptied⟩
    rw [htask] at hroom
    exact hroom
  | exhaust _ _ | desert _ _ => exact ⟨(Nat.le_add_right _ _).trans hroom, hemptied⟩
  | @send d htask =>
    -- the place goes from the task to the channel, or nowhere
    have hplaces : (afterSending d).places = 0 := by
      cases d <;> rfl
    rw [htask] at hroom
    constructor
    · dsimp only
      rw [hplaces]
      split
      · exact (Nat.le_add_right _ _).trans hroom
      · rw [List.length_append]
        exact hroom
    · intro hclosed
      have hclosed' : s.sinkClosed = true := hclosed
      simpa [hclosed'] using hemptied hclosed
  | take hopen hchannel =>
    constructor
    · rw [hchannel, List.length_cons] at hroom
      dsimp only
      omega
    · intro hclosed
      exact (Bool.false_ne_true (hopen.symm.trans hclosed)).elim
  | finish _ _ _ => exact ⟨hroom, hemptied⟩
  | close => exact ⟨(Nat.add_le_add_right (Nat.zero_le _) _).trans hroom, fun _ => rfl⟩

/-- **The channel never holds more than it should**, and nothing for a sink that left. -/
theorem fits_run (h : Fits s) (steps : List PumpStep) : Fits (s.run steps) :=
  run_induction (fun _ _ hfits hmoves => hfits.moves hmoves) h steps

/-- Only reading takes something out of the source. -/
theorem source_step {a : PumpStep} (ha : a ≠ .read) : (s.step a).source = s.source := by
  cases a with
  | read => exact absurd rfl ha
  | close => rfl
  | reserve | notice | send | receive =>
    simp only [step]
    repeat' split
    all_goals rfl

/-- Without a reserved place nothing is read, and no end is found. -/
theorem reserved_of_read (h : s.step .read ≠ s) : s.task = .reserved := by
  by_contra htask
  exact h (by simp [step, htask])

/-! ## The sink -/

/-- What the sink has, whether it is still there or not: the first deliveries of the body, and all
    of them if it saw the end. -/
structure Keeps (all : List Delivery) (s : PumpState) : Prop extends Carries all s where
  taken : s.received <+: all
  whole : s.sinkDone = true → s.received = all

theorem keeps_start (all : List Delivery) : Keeps all (start all) :=
  ⟨carries_start all, List.nil_prefix, nofun⟩

/-- Nothing comes to a sink that left. -/
theorem Moves.sink_eq (hmoves : Moves s t) (hclosed : t.sinkClosed = true) :
    t.received = s.received ∧ t.sinkDone = s.sinkDone := by
  cases hmoves with
  | take hopen _ | finish hopen _ _ => exact (Bool.false_ne_true (hopen.symm.trans hclosed)).elim
  | reserve | read | exhaust | desert | send | close => exact ⟨rfl, rfl⟩

theorem Keeps.moves (hall : FailsLast all) (h : Keeps all s) (hmoves : Moves s t) :
    Keeps all t := by
  have ht : Carries all t := h.toCarries.moves hall hmoves
  cases hclosed : t.sinkClosed with
  -- while the sink is there, both follow from the order; afterwards, from what was before
  | false => exact ⟨ht, ⟨_, ht.order hclosed⟩, ht.received_eq hclosed⟩
  | true =>
    obtain ⟨hreceived, hdone⟩ := hmoves.sink_eq hclosed
    refine ⟨ht, ?_, ?_⟩
    · rw [hreceived]
      exact h.taken
    · rw [hreceived, hdone]
      exact h.whole

/-- **The sink has the beginning of the body, and all of it at the end.** -/
theorem keeps_run (hall : FailsLast all) (h : Keeps all s) (steps : List PumpStep) :
    Keeps all (s.run steps) :=
  run_induction (fun _ _ hkeeps hmoves => hkeeps.moves hall hmoves) h steps

/-! ## A sink that left -/

/-- How much the task can still read once the sink left: what it has an empty place for. -/
def due (s : PumpState) : Nat := if s.task = .reserved then 1 else 0

theorem due_le_one (s : PumpState) : s.due ≤ 1 := by
  unfold due
  split <;> omega

theorem due_eq_zero (s : PumpState) (htask : s.task ≠ .reserved) : s.due = 0 := if_neg htask

/-- What becomes of a pump whose sink left. -/
structure Forsaken (s t : PumpState) : Prop where
  closed : t.sinkClosed = true
  received : t.received = s.received
  read : ∃ read, s.source = read ++ t.source ∧ read.length + t.due ≤ s.due

theorem forsaken_refl (hclosed : s.sinkClosed = true) : Forsaken s s :=
  ⟨hclosed, rfl, [], rfl, by simp⟩

theorem Forsaken.moves (h : Forsaken s t) (hmoves : Moves t u) : Forsaken s u := by
  obtain ⟨hclosed, hreceived, read, hread, hdue⟩ := h
  cases hmoves with
  | reserve _ hopen _ | take hopen _ | finish hopen _ _ =>
    exact (Bool.false_ne_true (hopen.symm.trans hclosed)).elim
  | @read d rest htask hsource =>
    refine ⟨hclosed, hreceived, read ++ [d], ?_, ?_⟩
    · rw [hread, hsource, List.append_assoc]
      rfl
    · simpa [due, htask] using hdue
  | exhaust _ _ | desert _ _ =>
    exact ⟨hclosed, hreceived, read, hread, (Nat.le_add_right _ _).trans hdue⟩
  | @send d _ =>
    -- behind a frame the task has no place, and without a sink it gets none
    refine ⟨hclosed, hreceived, read, hread, ?_⟩
    have hnone : due { t with
        task := afterSending d
        channel := if t.sinkClosed then t.channel else t.channel ++ [d] } = 0 := by
      cases d <;> rfl
    rw [hnone]
    exact (Nat.le_add_right _ _).trans hdue
  | close => exact ⟨rfl, hreceived, read, hread, hdue⟩

/-- **A task reads no more for a sink that left than it has an empty place for.** -/
theorem forsaken_run (hclosed : s.sinkClosed = true) (steps : List PumpStep) :
    Forsaken s (s.run steps) :=
  run_induction (fun _ _ hforsaken hmoves => hforsaken.moves hmoves) (forsaken_refl hclosed) steps

/-! ## Steps that do something -/

/-- How many steps of a row change something. -/
def changes (s : PumpState) : List PumpStep → Nat
  | [] => 0
  | a :: steps => (if s.step a = s then 0 else 1) + (s.step a).changes steps

/-- **As long as each change brings a measure down, there are only so many changes.** -/
theorem changes_le {P : PumpState → Prop} {measure : PumpState → Nat}
    (hkeep : ∀ s t, P s → Moves s t → P t)
    (hless : ∀ s t, P s → Moves s t → t ≠ s → measure t < measure s) (h : P s)
    (steps : List PumpStep) : s.changes steps ≤ measure s := by
  induction steps generalizing s with
  | nil => exact Nat.zero_le _
  | cons a steps ih =>
    unfold changes
    by_cases hsame : s.step a = s
    · rw [if_pos hsame, hsame, Nat.zero_add]
      exact ih h
    · have hmoves : Moves s (s.step a) := (step_moves s a).resolve_left hsame
      have hrest := ih (hkeep s _ h hmoves)
      have hdown := hless s _ h hmoves hsame
      rw [if_neg hsame]
      omega

/-- How far a pump is from its end, with the sink's leaving. -/
def remaining (s : PumpState) : Nat := s.left + if s.sinkClosed then 0 else 1

theorem remaining_start (all : List Delivery) : (start all).remaining = 4 * all.length + 4 := by
  simp [remaining, left, start]

/-- A sink that left a second time changes nothing. -/
theorem close_eq (hclosed : s.sinkClosed = true) (hchannel : s.channel = []) :
    { s with sinkClosed := true, channel := [] } = s := by
  rw [← hclosed, ← hchannel]

/-- Each change brings a pump nearer to its end. -/
theorem Moves.remaining_lt (hmoves : Moves s t) (hchanged : t ≠ s) :
    t.remaining < s.remaining := by
  cases hmoves with
  | reserve htask hopen _ => simp [remaining, left, htask]
  | read htask hsource =>
    simp only [remaining, left, htask, hsource, List.length_cons]
    omega
  | exhaust htask _ => simp [remaining, left, htask]
  | desert htask _ => rcases htask with htask | htask <;> simp [remaining, left, htask]
  | @send d htask =>
    have hchannel : (if s.sinkClosed then s.channel else s.channel ++ [d]).length ≤
        s.channel.length + 1 := by
      split <;> simp
    cases d <;> simp only [remaining, left, htask, afterSending] <;> omega
  | take _ hchannel =>
    simp only [remaining, left, hchannel, List.length_cons]
    omega
  | finish _ _ _ =>
    have hgoing : s.sinkDone = false := by
      by_contra hdone
      rw [Bool.not_eq_false] at hdone
      exact hchanged (by rw [← hdone])
    simp [remaining, left, hgoing]
  | close =>
    simp only [remaining, left, List.length_nil, if_true]
    cases hclosed : s.sinkClosed with
    | false =>
      rw [if_neg Bool.false_ne_true]
      omega
    | true =>
      have hchannel : s.channel ≠ [] := fun h => hchanged (close_eq hclosed h)
      have hlength := List.length_pos_iff.mpr hchannel
      rw [if_pos rfl]
      omega

/-- How many turns the task has left once the sink left. -/
def turns (s : PumpState) : Nat :=
  match s.task with
  | .waiting => 1
  | .reserved => 3
  | .holding _ => 2
  | .ended => 0

/-- Once the sink left, each change is a turn of the task: closing again changes nothing. -/
theorem Moves.turns_lt (hmoves : Moves s t) (hclosed : s.sinkClosed = true) (hfits : Fits s)
    (hchanged : t ≠ s) : t.turns < s.turns := by
  cases hmoves with
  | reserve _ hopen _ | take hopen _ | finish hopen _ _ =>
    exact (Bool.false_ne_true (hopen.symm.trans hclosed)).elim
  | read htask _ | exhaust htask _ => simp [turns, htask]
  | desert htask _ => rcases htask with htask | htask <;> simp [turns, htask]
  | @send d htask => cases d <;> simp [turns, htask, afterSending]
  | close => exact absurd (close_eq hclosed (hfits.emptied hclosed)) hchanged

/-- A task that works for a sink that left has at most three turns. -/
theorem changes_closed_le (hclosed : s.sinkClosed = true) (hfits : Fits s)
    (steps : List PumpStep) : s.changes steps ≤ 3 := by
  have hle : s.changes steps ≤ s.turns := by
    refine changes_le (P := fun s => s.sinkClosed = true ∧ Fits s) ?_ ?_ ⟨hclosed, hfits⟩ steps
    · intro s t h hmoves
      exact ⟨((forsaken_refl h.1).moves hmoves).closed, h.2.moves hmoves⟩
    · intro s t h hmoves
      exact hmoves.turns_lt h.1 h.2
  have hturns : s.turns ≤ 3 := by
    unfold turns
    split <;> omega
  exact hle.trans hturns

/-- A task that goes on for a sink that left has a turn. -/
theorem exists_turn (hclosed : s.sinkClosed = true) (hgoing : s.task ≠ .ended) :
    ∃ a, a ≠ .close ∧ s.step a ≠ s := by
  have hchange : ∀ a, (s.step a).task ≠ s.task → s.step a ≠ s := by
    intro a htask hsame
    exact htask (by rw [hsame])
  cases htask : s.task with
  | waiting => exact ⟨.reserve, by decide, hchange _ (by simp [step, htask, hclosed])⟩
  | reserved => exact ⟨.notice, by decide, hchange _ (by simp [step, htask, hclosed])⟩
  | holding d =>
    refine ⟨.send, by decide, hchange _ ?_⟩
    cases d <;> simp [step, htask]
  | ended => exact absurd htask hgoing

/-- While the task goes on, or the sink waits for the end, some step does something. -/
theorem Carries.exists_change (h : Carries all s)
    (hgoing : s.task ≠ .ended ∨ s.sinkClosed = false ∧ s.sinkDone = false) :
    ∃ a, a ≠ .close ∧ s.step a ≠ s := by
  by_cases hclosed : s.sinkClosed = true
  · refine exists_turn hclosed (hgoing.resolve_right ?_)
    intro hopen
    exact Bool.false_ne_true (hopen.1.symm.trans hclosed)
  · have hopen : s.sinkClosed = false := Bool.eq_false_iff.mpr hclosed
    have hdone : s.sinkDone = false := by
      by_contra hdone
      rw [Bool.not_eq_false] at hdone
      rcases hgoing with htask | hwaits
      · exact htask (h.done hopen hdone).1
      · exact Bool.false_ne_true (hwaits.2.symm.trans hdone)
    obtain ⟨a, hstays, hless⟩ := exists_step hopen hdone
    refine ⟨a, ?_, ?_⟩
    · intro ha
      rw [ha] at hstays
      exact Bool.false_ne_true hstays.symm
    · intro hsame
      rw [hsame] at hless
      exact Nat.lt_irrefl _ hless

end PumpState

/-- **What a pump keeps at every moment**, for every body and every order of the steps that the task
    and the sink take.

    * Until the sink leaves, what it took, what is in the channel, what the task holds and what is
      not read yet are all deliveries of the body, in their order.
    * The channel, with the place that the task has in it, never goes beyond its capacity.  Only
      reading takes something out of the source, and nothing is read, nor the end of it found,
      without a reserved place; so the source is never ahead of the sink by more than the capacity.
    * What the sink has is always the beginning of the body, and all of it once it sees the end:
      the body that a relayed message has.  A failure comes to it once, behind all frames, and last.
    * Once the sink left, nothing comes to it any more; the task reads one delivery more at most,
      and only if it had an empty place for it; and it has three turns at most before it stops.
    * A row of steps, however long, changes something four times for each delivery and four times
      more at most; and while the task goes on, or the sink waits for the end, some step does. -/
theorem pump_conserves (b : Body) (steps : List PumpStep) :
    let s := (PumpState.start b.deliveries).run steps
    (s.sinkClosed = false →
      s.received ++ s.channel ++ s.held ++ s.source = b.deliveries) ∧
    (s.channel.length + s.held.length ≤ s.occupied ∧ s.occupied ≤ Pump.capacity ∧
      (∀ a, a ≠ .read → (s.step a).source = s.source) ∧
      (s.step .read ≠ s → s.task = .reserved ∧ s.channel.length < Pump.capacity) ∧
      (s.sinkClosed = false →
        b.deliveries.length ≤ s.received.length + Pump.capacity + s.source.length)) ∧
    (s.received <+: b.deliveries ∧
      (s.sinkDone = true → s.received = b.deliveries ∧ Body.ofDeliveries s.received = b.pumped) ∧
      ∀ before reason after, s.received = before ++ .failure reason :: after →
        before = b.frames.map .frame ∧ b.failure = some reason ∧ after = []) ∧
    (s.sinkClosed = true → ∀ more,
      (s.run more).received = s.received ∧
      (∃ read, s.source = read ++ (s.run more).source ∧ read.length ≤ 1 ∧
        (s.task ≠ .reserved → read = [])) ∧
      s.changes more ≤ 3) ∧
    (PumpState.start b.deliveries).changes steps ≤ 4 * b.deliveries.length + 4 ∧
    (s.task ≠ .ended ∨ s.sinkClosed = false ∧ s.sinkDone = false →
      ∃ a, a ≠ .close ∧ s.step a ≠ s) := by
  intro s
  have hkeeps : s.Keeps b.deliveries :=
    PumpState.keeps_run b.failsLast_deliveries (PumpState.keeps_start b.deliveries) steps
  have hfits : s.Fits := PumpState.fits_run (PumpState.fits_start b.deliveries) steps
  have horder : s.sinkClosed = false →
      s.received ++ s.channel ++ s.held ++ s.source = b.deliveries := by
    intro hopen
    simpa using hkeeps.order hopen
  have hheld := s.length_held_le
  have hroom := hfits.room
  refine ⟨horder, ⟨?_, ?_, ?_, ?_, ?_⟩, ⟨hkeeps.taken, ?_, ?_⟩, ?_, ?_, hkeeps.exists_change⟩
  · rw [PumpState.occupied_eq]
    omega
  · rw [PumpState.occupied_eq]
    exact hroom
  · intro a ha
    exact PumpState.source_step ha
  · intro hread
    have htask := PumpState.reserved_of_read hread
    refine ⟨htask, ?_⟩
    rw [htask] at hroom
    exact hroom
  · intro hopen
    have hlength := congrArg List.length (horder hopen)
    simp only [List.length_append] at hlength
    omega
  · intro hdone
    have hwhole := hkeeps.whole hdone
    refine ⟨hwhole, ?_⟩
    rw [hwhole, Body.ofDeliveries_deliveries, Body.pumped_eq]
  · intro before reason after hreceived
    obtain ⟨later, hlater⟩ := hkeeps.taken
    have hall : b.deliveries = before ++ .failure reason :: (after ++ later) := by
      rw [← hlater, hreceived, List.append_assoc]
      rfl
    obtain ⟨hframes, hfailure, hnone⟩ := Body.deliveries_failure hall
    exact ⟨hframes, hfailure, (List.append_eq_nil_iff.mp hnone).1⟩
  · intro hclosed more
    obtain ⟨-, hreceived, read, hread, hdue⟩ := PumpState.forsaken_run hclosed more
    refine ⟨hreceived, ⟨read, hread, ?_, ?_⟩, PumpState.changes_closed_le hclosed hfits more⟩
    · exact (Nat.le_add_right _ _).trans (hdue.trans s.due_le_one)
    · intro htask
      rw [s.due_eq_zero htask] at hdue
      exact List.length_eq_zero_iff.mp (Nat.eq_zero_of_add_eq_zero_right (Nat.le_zero.mp hdue))
  · rw [← PumpState.remaining_start]
    exact PumpState.changes_le (P := fun _ => True) (fun _ _ _ _ => trivial)
      (fun _ _ _ hmoves => hmoves.remaining_lt) trivial steps

/-- A sink that leaves while the task has an empty place: one frame more is read, and no second. -/
example :
    let b : Body := ⟨[.data [], .data [], .trailers .empty], none⟩
    let s := (PumpState.start b.deliveries).run
      [.reserve, .read, .send, .reserve, .close, .read, .send, .reserve, .read]
    s.task = .ended ∧ s.received = [] ∧ s.source = [.frame (.trailers .empty)] := by
  decide

end AccessGateway

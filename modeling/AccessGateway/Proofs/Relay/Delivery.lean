import AccessGateway.Proofs.Relay.Framing

/-!
# What arrives of a body

The body of an answer is passed on by a pump while it is read, or it is collected first.  A pump is
two parties that take their steps in any order, the task that fills the channel and the sink that
empties it; whatever the order, a sink that reads to the end takes what the backend sent, and it can
always come to the end.  Collecting reads the same row of deliveries, up to the first failure.

## Results

* `PumpState.step_moves` — what a step can do.
* `PumpState.carries_run` — nothing is lost on the way, and nothing changes places.
* `PumpState.exists_finish` — a sink that stays can read to the end.
* `PumpState.delivers_iff` — what a sink takes that reads to the end.
* `Body.collected_eq` — collecting, delivery by delivery.
* `body_modes_agree` — what arrives of a body, in each of the ways it can travel.
-/

set_option autoImplicit false

namespace AccessGateway

namespace PumpState

/-! ## Steps -/

/-- What the task has read and not sent yet. -/
def held (s : PumpState) : List Delivery :=
  match s.task with
  | .holding d => [d]
  | .waiting | .reserved | .ended => []

/-- Where the task stands once it has sent something. -/
def afterSending : Delivery → PumpTask
  | .frame _ => .waiting
  | .failure _ => .ended

/-- The changes that steps can make. -/
inductive Moves (s : PumpState) : PumpState → Prop
  /-- The task reserves a place. -/
  | reserve : s.task = .waiting → s.sinkClosed = false → s.occupied < Pump.capacity →
      Moves s { s with task := .reserved }
  /-- The task reads what is next. -/
  | read {d : Delivery} {rest : List Delivery} : s.task = .reserved → s.source = d :: rest →
      Moves s { s with task := .holding d, source := rest }
  /-- The task finds nothing to read any more. -/
  | exhaust : s.task = .reserved → s.source = [] → Moves s { s with task := .ended }
  /-- The task finds the sink gone. -/
  | desert : s.task = .waiting ∨ s.task = .reserved → s.sinkClosed = true →
      Moves s { s with task := .ended }
  /-- The task sends what it holds. -/
  | send {d : Delivery} : s.task = .holding d →
      Moves s
        { s with
          task := afterSending d
          channel := if s.sinkClosed then s.channel else s.channel ++ [d] }
  /-- The sink takes the oldest delivery. -/
  | take {d : Delivery} {rest : List Delivery} : s.sinkClosed = false → s.channel = d :: rest →
      Moves s { s with channel := rest, received := s.received ++ [d] }
  /-- The sink sees the end. -/
  | finish : s.sinkClosed = false → s.channel = [] → s.task = .ended →
      Moves s { s with sinkDone := true }
  /-- The sink goes away. -/
  | close : Moves s { s with sinkClosed := true, channel := [] }

/-- **What a step can do**: one of the changes, or nothing. -/
theorem step_moves (s : PumpState) (a : PumpStep) : s.step a = s ∨ Moves s (s.step a) := by
  cases a with
  | reserve =>
    simp only [step]
    split
    · rename_i htask
      split
      · rename_i hclosed
        exact .inr (.desert (.inl htask) hclosed)
      · rename_i hopen
        split
        · rename_i hroom
          exact .inr (.reserve htask (Bool.eq_false_iff.mpr hopen) hroom)
        · exact .inl rfl
    · exact .inl rfl
  | read =>
    simp only [step]
    split
    · rename_i htask
      split
      · rename_i hsource
        exact .inr (.exhaust htask hsource)
      · rename_i hsource
        exact .inr (.read htask hsource)
    · exact .inl rfl
  | notice =>
    simp only [step]
    split
    · rename_i h
      exact .inr (.desert (.inr h.1) h.2)
    · exact .inl rfl
  | send =>
    simp only [step]
    split
    · rename_i d htask
      refine .inr ?_
      cases d <;> exact .send htask
    · exact .inl rfl
  | receive =>
    simp only [step]
    split
    · exact .inl rfl
    · rename_i hopen
      split
      · rename_i hchannel
        exact .inr (.take (Bool.eq_false_iff.mpr hopen) hchannel)
      · rename_i hchannel
        split
        · rename_i htask
          exact .inr (.finish (Bool.eq_false_iff.mpr hopen) hchannel htask)
        · exact .inl rfl
  | close => exact .inr .close

/-- What every change keeps, every row of steps keeps. -/
theorem run_induction {P : PumpState → Prop} (hkeep : ∀ s t, P s → Moves s t → P t)
    {s : PumpState} (h : P s) (steps : List PumpStep) : P (s.run steps) := by
  unfold run
  induction steps generalizing s with
  | nil => exact h
  | cons a steps ih =>
    rw [List.foldl_cons]
    apply ih
    rcases step_moves s a with hsame | hmoves
    · rw [hsame]
      exact h
    · exact hkeep s _ h hmoves

/-! ## Order -/

/-- Only the last of some deliveries can be a failure. -/
def FailsLast (all : List Delivery) : Prop :=
  ∀ before reason after, all = before ++ .failure reason :: after → after = []

/-- While the sink is there, what it took, what is on the way and what is not read yet are all
    deliveries in their order, and the end is seen behind them only. -/
structure Carries (all : List Delivery) (s : PumpState) : Prop where
  order : s.sinkClosed = false → s.received ++ (s.channel ++ (s.held ++ s.source)) = all
  ended : s.sinkClosed = false → s.task = .ended → s.source = []
  done : s.sinkClosed = false → s.sinkDone = true → s.task = .ended ∧ s.channel = []

variable {all : List Delivery} {s t : PumpState}

theorem carries_start (all : List Delivery) : Carries all (start all) :=
  ⟨fun _ => rfl, nofun, nofun⟩

/-- A change keeps all deliveries in their order. -/
theorem Carries.moves (hall : FailsLast all) (h : Carries all s) (hmoves : Moves s t) :
    Carries all t := by
  obtain ⟨horder, hended, hdone⟩ := h
  -- while the task goes on, the sink has not seen the end
  have hgoing : s.task ≠ .ended →
      ∀ {p : Prop}, s.sinkClosed = false → s.sinkDone = true → p := by
    intro htask _ hopen hd
    exact absurd (hdone hopen hd).1 htask
  cases hmoves with
  | reserve htask hopen _ =>
    refine ⟨?_, nofun, ?_⟩
    · simpa [held, htask] using horder
    · exact hgoing (by rw [htask]; nofun)
  | @read d rest htask hsource =>
    refine ⟨?_, nofun, ?_⟩
    · simpa [held, htask, hsource] using horder
    · exact hgoing (by rw [htask]; nofun)
  | exhaust htask hsource =>
    refine ⟨?_, fun _ _ => hsource, ?_⟩
    · simpa [held, htask] using horder
    · exact hgoing (by rw [htask]; nofun)
  | desert _ hclosed =>
    have hnot : ¬s.sinkClosed = false := by rw [hclosed]; nofun
    exact ⟨fun h => absurd h hnot, fun h => absurd h hnot, fun h => absurd h hnot⟩
  | @send d htask =>
    have hsent : s.sinkClosed = false →
        s.received ++ (s.channel ++ (d :: s.source)) = all := by
      intro hopen
      simpa [held, htask] using horder hopen
    refine ⟨?_, ?_, ?_⟩
    · intro hopen
      have hopen' : s.sinkClosed = false := hopen
      have hheld : held { s with
          task := afterSending d
          channel := if s.sinkClosed then s.channel else s.channel ++ [d] } = [] := by
        cases d <;> rfl
      rw [hheld]
      simpa [hopen'] using hsent hopen'
    · intro hopen hend
      cases d with
      | frame f => cases hend
      | failure reason =>
        refine hall (s.received ++ s.channel) reason s.source ?_
        rw [← hsent hopen, List.append_assoc]
    · exact hgoing (by rw [htask]; nofun)
  | @take d rest hopen hchannel =>
    refine ⟨?_, hended, ?_⟩
    · intro _
      have hheld : held { s with channel := rest, received := s.received ++ [d] } = s.held := rfl
      rw [hheld]
      simpa [hchannel] using horder hopen
    · intro _ hd
      rw [hchannel] at hdone
      exact absurd (hdone hopen hd).2 (List.cons_ne_nil d rest)
  | finish hopen hchannel htask => exact ⟨horder, hended, fun _ _ => ⟨htask, hchannel⟩⟩
  | close => exact ⟨nofun, nofun, nofun⟩

/-- **Nothing is lost on the way, and nothing changes places**, in whatever order the steps come. -/
theorem carries_run (hall : FailsLast all) (h : Carries all s) (steps : List PumpStep) :
    Carries all (s.run steps) :=
  run_induction (fun _ _ hcarries hmoves => hcarries.moves hall hmoves) h steps

/-- At the end, the sink has taken everything. -/
theorem Carries.received_eq (h : Carries all s) (hopen : s.sinkClosed = false)
    (hdone : s.sinkDone = true) : s.received = all := by
  obtain ⟨htask, hchannel⟩ := h.done hopen hdone
  have horder := h.order hopen
  rw [hchannel, h.ended hopen htask] at horder
  simpa [held, htask] using horder

/-! ## The end -/

/-- How far a pump is from its end. -/
def left (s : PumpState) : Nat :=
  4 * s.source.length + s.channel.length +
    (match s.task with
      | .waiting => 2
      | .reserved => 1
      | .holding _ => 4
      | .ended => 0) +
    if s.sinkDone then 0 else 1

/-- While the sink is there and has not seen the end, some step brings the pump nearer to it. -/
theorem exists_step (hopen : s.sinkClosed = false) (hgoing : s.sinkDone = false) :
    ∃ a, (s.step a).sinkClosed = false ∧ (s.step a).left < s.left := by
  obtain ⟨source, task, channel, received, sinkDone, sinkClosed⟩ := s
  obtain rfl : sinkClosed = false := hopen
  obtain rfl : sinkDone = false := hgoing
  cases channel with
  | cons d rest =>
    refine ⟨.receive, rfl, ?_⟩
    simp [step, left]
  | nil =>
    cases task with
    | waiting => exact ⟨.reserve, by simp [step, occupied, Pump.capacity, left]⟩
    | reserved =>
      cases source with
      | nil => exact ⟨.read, by simp [step, left]⟩
      | cons d rest => exact ⟨.read, by simp [step, left]; omega⟩
    | holding d =>
      refine ⟨.send, rfl, ?_⟩
      cases d <;> simp [step, left]
    | ended => exact ⟨.receive, by simp [step, left]⟩

/-- **A sink that stays can read to the end.** -/
theorem exists_finish (hopen : s.sinkClosed = false) :
    ∃ steps, (s.run steps).sinkClosed = false ∧ (s.run steps).sinkDone = true := by
  induction hn : s.left using Nat.strongRecOn generalizing s with
  | ind n ih =>
    subst hn
    cases hdone : s.sinkDone with
    | true => exact ⟨[], hopen, hdone⟩
    | false =>
      obtain ⟨a, hopen', hleft⟩ := exists_step hopen hdone
      obtain ⟨steps, hsteps⟩ := ih _ hleft hopen' rfl
      exact ⟨a :: steps, hsteps⟩

/-- A sink that stays and reads to the end takes these deliveries, for some order of the steps. -/
def Delivers (source taken : List Delivery) : Prop :=
  ∃ steps, ((start source).run steps).sinkClosed = false ∧
    ((start source).run steps).sinkDone = true ∧ ((start source).run steps).received = taken

/-- **What a sink takes that reads to the end**: everything, whatever the order of the steps. -/
theorem delivers_iff {taken : List Delivery} (hall : FailsLast all) :
    Delivers all taken ↔ taken = all := by
  have hreceived : ∀ steps, ((start all).run steps).sinkClosed = false →
      ((start all).run steps).sinkDone = true → ((start all).run steps).received = all := by
    intro steps
    exact (carries_run hall (carries_start all) steps).received_eq
  constructor
  · rintro ⟨steps, hopen, hdone, rfl⟩
    exact hreceived steps hopen hdone
  · rintro rfl
    obtain ⟨steps, hopen, hdone⟩ := exists_finish (s := start taken) rfl
    exact ⟨steps, hopen, hdone, hreceived steps hopen hdone⟩

end PumpState

namespace Body

/-! ## Collecting -/

/-- Collects what is read, delivery by delivery, behind the pieces collected already; empty pieces
    and trailers are not kept, and the first failure ends it. -/
def gather (pieces : List Bytes) : List Delivery → Except String (List Bytes)
  | [] => .ok pieces
  | .frame (.data bytes) :: rest =>
    gather (if bytes = [] then pieces else pieces ++ [bytes]) rest
  | .frame (.trailers _) :: rest => gather pieces rest
  | .failure reason :: _ => .error reason

theorem gather_frames (pieces : List Bytes) (frames : List Frame) (rest : List Delivery) :
    ∃ more, gather pieces (frames.map .frame ++ rest) = gather (pieces ++ more) rest ∧
      more.flatten = frames.flatMap Frame.bytes := by
  induction frames generalizing pieces with
  | nil => exact ⟨[], by simp⟩
  | cons f frames ih =>
    cases f with
    | trailers headers =>
      obtain ⟨more, hmore, hbytes⟩ := ih pieces
      refine ⟨more, ?_, ?_⟩
      · simpa [gather] using hmore
      · simpa [Frame.bytes] using hbytes
    | data bytes =>
      by_cases hempty : bytes = []
      · obtain ⟨more, hmore, hbytes⟩ := ih pieces
        refine ⟨more, ?_, ?_⟩
        · simpa [gather, hempty] using hmore
        · simpa [Frame.bytes, hempty] using hbytes
      · obtain ⟨more, hmore, hbytes⟩ := ih (pieces ++ [bytes])
        refine ⟨bytes :: more, ?_, ?_⟩
        · simpa [gather, hempty] using hmore
        · simpa [Frame.bytes] using hbytes

/-- **Collecting a body is collecting its deliveries.** -/
theorem collected_eq (b : Body) : b.collected = (gather [] b.deliveries).map List.flatten := by
  obtain ⟨frames, failure⟩ := b
  unfold deliveries
  obtain ⟨more, hmore, hbytes⟩ := gather_frames [] frames (failure.map .failure).toList
  rw [hmore]
  cases failure with
  | none => simp [gather, collected, content, Except.map, hbytes]
  | some reason => rfl

/-- Nothing comes after the failure of a body. -/
theorem failsLast_deliveries (b : Body) : PumpState.FailsLast b.deliveries := by
  obtain ⟨frames, failure⟩ := b
  unfold deliveries
  dsimp only
  intro before reason after h
  induction frames generalizing before with
  | nil =>
    cases failure with
    | none => simp at h
    | some last =>
      cases before with
      | nil => exact (List.cons.inj h).2.symm
      | cons d before => simp at h
  | cons f frames ih =>
    cases before with
    | nil => cases (List.cons.inj h).1
    | cons d before => exact ih before (List.cons.inj h).2

/-- A body in one piece, or none. -/
theorem frames_ofBytes (bs : Bytes) :
    (ofBytes bs).frames.length ≤ 1 ∧ ∀ f ∈ (ofBytes bs).frames, ∃ bytes, f = .data bytes := by
  unfold ofBytes
  split
  · simp
  · simp

end Body

/-- The bytes in a delivery. -/
def Delivery.bytes : Delivery → Bytes
  | .frame f => f.bytes
  | .failure _ => []

theorem Body.bytes_deliveries (b : Body) : b.deliveries.flatMap Delivery.bytes = b.content := by
  obtain ⟨frames, failure⟩ := b
  unfold deliveries content
  rw [List.flatMap_append, List.flatMap_map]
  cases failure <;> simp [Delivery.bytes]

/-- **What arrives of a body**, in each of the ways it can travel, if the answer may have one.

    * If the body does not fail, all its bytes arrive, in order, whichever way it travels.
    * If it fails, everything before the failure arrives if it is passed on as it comes, then the
      failure, and nothing more; if it is collected, there is no answer.
    * Passed on as it comes, it keeps its frames; collected, it arrives in one piece at most.
    * What a sink takes that reads a pump to its end is the body of the answer, in whatever order
      task and sink take their steps, and such a sink there can be; collecting what it takes is
      collecting what the backend sent. -/
theorem body_modes_agree (backend : Response) (frontend : Version) (method : Method)
    (now : Timestamp) (mode : BodyMode) (hbody : backend.status.isBodiless method = false)
    (hmode : BodyMode.of backend.headers frontend = .ok mode) :
    (backend.body.failure = none →
      ∃ response, backend.relay frontend method now = .ok response ∧
        response.body.failure = none ∧ response.body.content = backend.body.content) ∧
    (∀ reason, backend.body.failure = some reason →
      (mode ≠ .buffered → ∃ response, backend.relay frontend method now = .ok response ∧
        response.body.deliveries = backend.body.frames.map .frame ++ [.failure reason]) ∧
      (mode = .buffered → backend.relay frontend method now = .error (.backendBody reason))) ∧
    (∀ response, backend.relay frontend method now = .ok response →
      (mode ≠ .buffered → response.body.frames = backend.body.frames ∧
        ∀ taken, PumpState.Delivers backend.body.deliveries taken ↔
          taken = response.body.deliveries) ∧
      (mode = .buffered → response.body.frames.length ≤ 1 ∧
        ∀ f ∈ response.body.frames, ∃ bytes, f = .data bytes)) ∧
    ∀ taken, PumpState.Delivers backend.body.deliveries taken →
      taken.flatMap Delivery.bytes = backend.body.content ∧
      (Body.gather [] taken).map List.flatten = backend.body.collected := by
  have hdelivers : ∀ taken, PumpState.Delivers backend.body.deliveries taken ↔
      taken = backend.body.deliveries := by
    intro taken
    exact PumpState.delivers_iff (Body.failsLast_deliveries backend.body)
  have hstreamed := @Response.relay_streamed backend frontend method now mode hmode
  have hcollected : mode = .buffered → BodyMode.of backend.headers frontend = .ok .buffered := by
    rintro rfl
    exact hmode
  refine ⟨?_, ?_, ?_, ?_⟩
  · intro hfailure
    by_cases hbuffered : mode = .buffered
    · rw [Response.relay_collected (hcollected hbuffered) hbody, hfailure]
      exact ⟨_, rfl, rfl, Body.content_ofBytes _⟩
    · exact ⟨_, hstreamed hbuffered, hfailure, rfl⟩
  · intro reason hfailure
    constructor
    · intro hbuffered
      refine ⟨_, hstreamed hbuffered, ?_⟩
      rw [Body.deliveries, hfailure]
      rfl
    · intro hbuffered
      rw [Response.relay_collected (hcollected hbuffered) hbody, hfailure]
  · intro response hrelay
    constructor
    · intro hbuffered
      rw [hstreamed hbuffered] at hrelay
      cases hrelay
      exact ⟨rfl, hdelivers⟩
    · intro hbuffered
      rw [Response.relay_collected (hcollected hbuffered) hbody] at hrelay
      cases hfailure : backend.body.failure with
      | some reason =>
        rw [hfailure] at hrelay
        cases hrelay
      | none =>
        rw [hfailure] at hrelay
        cases hrelay
        exact Body.frames_ofBytes backend.body.content
  · intro taken htaken
    obtain rfl := (hdelivers taken).mp htaken
    exact ⟨Body.bytes_deliveries backend.body, (Body.collected_eq backend.body).symm⟩

/-- A body with an empty frame and trailers that breaks off: all three arrive, then the failure. -/
theorem body_modes_agree_broken :
    let sent : List Frame := [.data (Bytes.ofText "hi"), .data [], .trailers .empty]
    let backend : Response :=
      ⟨.ok, none, ⟨[(.transferEncoding, ⟨Bytes.ofText "Chunked"⟩)]⟩, ⟨sent, some "reset"⟩, false⟩
    backend.status.isBodiless .get = false ∧
    BodyMode.of backend.headers .http11 = .ok .chunked ∧
    ∃ response, backend.relay .http11 .get 0 = .ok response ∧
      response.body.deliveries = sent.map .frame ++ [.failure "reset"] := by
  intro sent backend
  have hbody : backend.status.isBodiless .get = false := by decide
  have hmode : BodyMode.of backend.headers .http11 = .ok .chunked := by decide +kernel
  obtain ⟨-, hfails, -, -⟩ := body_modes_agree backend .http11 .get 0 .chunked hbody hmode
  exact ⟨hbody, hmode, (hfails "reset" rfl).1 nofun⟩

end AccessGateway

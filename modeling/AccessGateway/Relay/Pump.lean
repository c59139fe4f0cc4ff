import AccessGateway.Wire.Message

/-!
# Pumping bodies

A body is passed on by a task that copies its frames into a channel of limited size, from which
the sink takes them.  The task reserves a place in the channel before it reads a frame, so a slow
sink halts the source.  `PumpState` follows the task and the sink step by step in any order;
`Body.pumped` is the body that the sink sees.
-/

set_option autoImplicit false

namespace AccessGateway

/-- What is read from a body: a frame, or the failure that ends it. -/
inductive Delivery where
  | frame (f : Frame)
  | failure (reason : String)
deriving DecidableEq, Repr

/-- What can be read from a body, in order. -/
def Body.deliveries (b : Body) : List Delivery :=
  b.frames.map .frame ++ (b.failure.map .failure).toList

/-- The body that a row of deliveries makes up; nothing counts after a failure. -/
def Body.ofDeliveries : List Delivery → Body
  | [] => .empty
  | .frame f :: rest =>
    let b := ofDeliveries rest
    ⟨f :: b.frames, b.failure⟩
  | .failure reason :: _ => ⟨[], some reason⟩

/-- The body that the sink of a pump sees (`pump`).  Nothing is started for a body at its end. -/
def Body.pumped (b : Body) : Body := if b.isAtEnd then .empty else .ofDeliveries b.deliveries

/-- All bytes of a body, read before any of them is passed on (`buffer`). -/
def Body.collected (b : Body) : Except String Bytes :=
  match b.failure with
  | some reason => .error reason
  | none => .ok b.content

/-- How many deliveries the channel of a pump holds at most. -/
def Pump.capacity : Nat := 16

/-- Where the copying task stands (`copy_frames`). -/
inductive PumpTask where
  /-- Nothing is reserved. -/
  | waiting
  /-- A place in the channel is reserved. -/
  | reserved
  /-- A place is reserved and this was read for it. -/
  | holding (d : Delivery)
  /-- The task is over. -/
  | ended
deriving DecidableEq, Repr

/-- A pump between two steps. -/
structure PumpState where
  /-- What was not read yet. -/
  source : List Delivery
  task : PumpTask
  /-- What waits for the sink, oldest first. -/
  channel : List Delivery
  /-- What the sink took, oldest first. -/
  received : List Delivery
  /-- The sink saw the end of the body. -/
  sinkDone : Bool
  /-- The sink went away. -/
  sinkClosed : Bool
deriving DecidableEq, Repr

/-- A step of the task or of the sink. -/
inductive PumpStep where
  /-- The task reserves a place, or ends because the sink is gone. -/
  | reserve
  /-- The task reads what is next, or ends because there is nothing. -/
  | read
  /-- The task finds the sink gone while it waits for the source, and ends. -/
  | notice
  /-- The task puts what it read into the channel. -/
  | send
  /-- The sink takes the oldest delivery, or sees the end of the body. -/
  | receive
  /-- The sink goes away. -/
  | close
deriving DecidableEq, Repr

namespace PumpState

/-- The pump of a body before its first step. -/
def start (source : List Delivery) : PumpState := ⟨source, .waiting, [], [], false, false⟩

/-- How many places of the channel are taken or reserved. -/
def occupied (s : PumpState) : Nat :=
  s.channel.length + match s.task with
    | .reserved | .holding _ => 1
    | .waiting | .ended => 0

/-- One step; a step that is not possible changes nothing. -/
def step (s : PumpState) : PumpStep → PumpState
  | .reserve =>
    if s.task = .waiting then
      if s.sinkClosed then { s with task := .ended }
      else if s.occupied < Pump.capacity then { s with task := .reserved }
      else s
    else s
  | .read =>
    if s.task = .reserved then
      match s.source with
      | [] => { s with task := .ended }
      | d :: rest => { s with task := .holding d, source := rest }
    else s
  | .notice => if s.task = .reserved ∧ s.sinkClosed then { s with task := .ended } else s
  | .send =>
    match s.task with
    | .holding d =>
      let next := match d with
        | .frame _ => PumpTask.waiting
        | .failure _ => PumpTask.ended
      { s with
        task := next
        channel := if s.sinkClosed then s.channel else s.channel ++ [d] }
    | _ => s
  | .receive =>
    if s.sinkClosed then s
    else match s.channel with
      | d :: rest => { s with channel := rest, received := s.received ++ [d] }
      | [] => if s.task = .ended then { s with sinkDone := true } else s
  | .close => { s with sinkClosed := true, channel := [] }

/-- A row of steps. -/
def run (s : PumpState) (steps : List PumpStep) : PumpState := steps.foldl step s

end PumpState
end AccessGateway

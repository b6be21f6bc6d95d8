import PeerWire.Mailbox
import PeerWire.Report

/-!
Assigning pieces to peers. Each piece request gets the lowest piece that its peer holds,
that we lack and that nobody is fetching, as a request for its first block; when there
is none the request is dropped. A delivered block completes its piece, and any
disconnect frees every assignment.

`Scheduler` is the bookkeeping alone. `Assignment` adds the two inboxes, the channels on
which answers go out, and the task: it waits for whichever inbox has something, and
while an answer finds no room it does nothing else.
-/

namespace PeerWire

/-- The bookkeeping of the scheduler. -/
structure Scheduler where
  /-- The length asked for in every request. -/
  blockSize : UInt32
  /-- The pieces that somebody is fetching. -/
  inFlight : List UInt32 := []
deriving DecidableEq, Repr, Inhabited

namespace Scheduler

/-- The piece for a peer that holds `remote`, given what we hold ourselves. -/
def choose? (s : Scheduler) (field remote : Bitfield) : Option UInt32 :=
  (remote.firstHeld? fun index =>
    !field.has index && !s.inFlight.contains (UInt32.ofNat index)).map UInt32.ofNat

/-- Somebody is fetching the piece. -/
def reserve (s : Scheduler) (piece : UInt32) : Scheduler :=
  if piece ∈ s.inFlight then s else { s with inFlight := piece :: s.inFlight }

/-- Finds a piece for a peer that holds `remote`, and has it fetched. -/
def assign? (s : Scheduler) (field remote : Bitfield) : Option (UInt32 × Scheduler) :=
  (s.choose? field remote).map fun piece => (piece, s.reserve piece)

/-- Nobody is fetching the piece. -/
def release (s : Scheduler) (piece : UInt32) : Scheduler :=
  { s with inFlight := s.inFlight.filter (· ≠ piece) }

/-- The message that asks for a piece. -/
def requestFor (s : Scheduler) (piece : UInt32) : Message :=
  .request { piece, offset := 0, length := s.blockSize }

/-- Takes a delivery into account, given and returning what we hold ourselves. A block
of a piece that does not exist changes nothing there. -/
def onDelivery (s : Scheduler) (field : Bitfield) : Delivery → Scheduler × Bitfield
  | .block _ block =>
      (s.release block.piece,
        match field.set block.piece.toNat with
        | .ok field => field
        | .error _ => field)
  | .disconnected _ => ({ s with inFlight := [] }, field)

end Scheduler

/-- Where the scheduler's task stands. -/
inductive AssignmentPhase where
  | idle
  /-- Answering with a piece, on the channel `replyTo`. -/
  | answering (piece : UInt32) (replyTo : Nat)
  | stopped
deriving DecidableEq, Repr, Inhabited

/-- An inbox of the scheduler. -/
inductive Inbox where
  | requests
  | deliveries
deriving DecidableEq, Repr, Inhabited

/-- The scheduler with its channels. -/
structure Assignment where
  scheduler : Scheduler
  /-- What we hold ourselves. -/
  field : Bitfield
  requests : Mailbox PieceRequest
  deliveries : Mailbox Delivery
  /-- Somebody may still send requests, or deliveries. -/
  hasRequesters : Bool := true
  hasDeliverers : Bool := true
  /-- The answer channels, by number. -/
  answers : List (Mailbox Message) := []
  phase : AssignmentPhase := .idle
deriving DecidableEq, Repr, Inhabited

namespace Assignment

def requestCapacity : Nat := 16
def deliveryCapacity : Nat := 64

/-- A scheduler that has not assigned anything. -/
def start (blockSize : UInt32) (field : Bitfield) : Assignment where
  scheduler := { blockSize }
  field
  requests := .ofCapacity requestCapacity
  deliveries := .ofCapacity deliveryCapacity

/-- Takes the next request and decides on it. -/
def takeRequest (a : Assignment) : Option Assignment :=
  match a.requests.items with
  | [] => none
  | request :: _ =>
      let a := { a with requests := (a.requests.take 1).2 }
      match a.scheduler.assign? a.field request.remote with
      | none => some a
      | some (piece, scheduler) =>
          some { a with scheduler, phase := .answering piece request.replyTo }

/-- Takes the next delivery. -/
def takeDelivery (a : Assignment) : Option Assignment :=
  match a.deliveries.items with
  | [] => none
  | delivery :: _ =>
      let (scheduler, field) := a.scheduler.onDelivery a.field delivery
      some { a with scheduler, field, deliveries := (a.deliveries.take 1).2 }

/-- Tries to send the answer. -/
def answer (a : Assignment) (piece : UInt32) (replyTo : Nat) : Option Assignment :=
  match a.answers[replyTo]? with
  | none => some { a with scheduler := a.scheduler.release piece, phase := .idle }
  | some box =>
      let (receipt, box') := box.send .scheduler (a.scheduler.requestFor piece)
      let a' := { a with answers := a.answers.set replyTo box' }
      match receipt with
      | .accepted => some { a' with phase := .idle }
      | .closed => some { a' with scheduler := a.scheduler.release piece, phase := .idle }
      | .full => if .scheduler ∈ box.line then none else some a'

/-- Whether nothing can come any more. -/
def hasDriedUp (a : Assignment) : Bool :=
  !a.hasRequesters && a.requests.items.isEmpty && !a.hasDeliverers && a.deliveries.items.isEmpty

/-- Ends the task, and closes both inboxes. -/
def stop (a : Assignment) : Assignment :=
  { a with requests := a.requests.close, deliveries := a.deliveries.close, phase := .stopped }

/-- One step of the task, looking at the given inbox when it is idle. -/
def turn (a : Assignment) (inbox : Inbox) : Option Assignment :=
  match a.phase with
  | .stopped => none
  | .answering piece replyTo => a.answer piece replyTo
  | .idle =>
      if a.hasDriedUp then some a.stop
      else
        match inbox with
        | .requests => a.takeRequest
        | .deliveries => a.takeDelivery

/-- Enough steps for everything that the task can do without new input. -/
def turnsLeft (a : Assignment) : Nat :=
  3 * a.requests.items.length + a.deliveries.items.length + 4

/-- Lets the task run until it has to wait, looking at the deliveries first. -/
def settle (a : Assignment) : Assignment :=
  go a.turnsLeft a
where
  /-- At most `turns` steps. -/
  go : Nat → Assignment → Assignment
    | 0, a => a
    | turns + 1, a =>
        match a.turn .deliveries <|> a.turn .requests with
        | none => a
        | some a => go turns a

end Assignment

end PeerWire

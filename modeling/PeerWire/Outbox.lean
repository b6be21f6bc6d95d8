import PeerWire.Mailbox
import PeerWire.Message

/-!
The write queue: messages on their way from the conversation and the scheduler to the
writer. They leave in the order of their arrival, one at a time, through a slot of
which the writer is the receiver; until a block is handed over there, a cancellation
that names it retracts it.

`Outbox.turn` is one step of the queue's task. Its order of precedence is: teardown, a
cancellation, an arriving message, handing over the oldest pending one. A cancellation
first takes in everything that has arrived, so that it finds a block that arrived
before it.
-/

namespace PeerWire

/-- The write queue with its channels. -/
structure Outbox where
  /-- Messages that have arrived and are not taken in yet. -/
  incoming : Mailbox Message
  cancels : Mailbox BlockRef
  /-- Where the writer takes messages from. -/
  slot : Mailbox Message
  pending : List Message := []
  /-- Somebody may still send into `incoming`. -/
  hasSenders : Bool := true
  /-- The end of `incoming` has not been seen. -/
  isListening : Bool := true
  hasStopped : Bool := false
deriving DecidableEq, Repr, Inhabited

namespace Outbox

/-- An empty write queue. -/
def start (incoming cancels slot : Nat) : Outbox where
  incoming := .ofCapacity incoming
  cancels := .ofCapacity cancels
  slot := .ofCapacity slot

/-- Everything that is still to be handed over, oldest first. -/
def queue (box : Outbox) : List Message :=
  box.pending ++ box.incoming.items

/-- Whether a message is the block that a cancellation names. -/
def isRetractedBy (ref : BlockRef) : Message → Bool
  | .piece block => block.isNamedBy ref
  | _ => false

/-- Stops: nothing is handed over any more, and both inputs are closed. -/
def stop (box : Outbox) : Outbox :=
  { box with incoming := box.incoming.close, cancels := box.cancels.close, hasStopped := true }

/-- Takes in everything that has arrived, and notices whether more can come. -/
def absorb (box : Outbox) : Outbox :=
  if box.isListening then
    { box with
      pending := box.pending ++ box.incoming.items
      incoming := box.incoming.takeAll.2
      isListening := box.hasSenders }
  else box

/-- Removes the oldest pending block that the cancellation names. -/
def retract (box : Outbox) (ref : BlockRef) : Outbox :=
  { box with pending := box.pending.eraseP (isRetractedBy ref) }

/-- Hands the oldest pending message to the writer. -/
def handOver (box : Outbox) : Option Outbox :=
  match box.pending with
  | [] => none
  | message :: rest =>
      if !box.slot.isOpen then some box.stop
      else if box.slot.hasRoom 0 then
        some { box with pending := rest, slot := box.slot.push message }
      else none

/-- One turn, without the check that ends the task. -/
def select (box : Outbox) (tornDown : Bool) : Option Outbox :=
  if tornDown then some box.stop
  else
    match box.cancels.items with
    | ref :: _ =>
        let box := { box with cancels := (box.cancels.take 1).2 }
        some (box.absorb.retract ref)
    | [] =>
        if box.isListening then
          match box.incoming.items with
          | message :: _ =>
              some { box with
                incoming := (box.incoming.take 1).2
                pending := box.pending ++ [message] }
          | [] => if box.hasSenders then box.handOver else some { box with isListening := false }
        else box.handOver

/-- Ends the task once nothing is pending and nothing can come. -/
def settleEnd (box : Outbox) : Outbox :=
  if !box.isListening && box.pending.isEmpty && !box.hasStopped then box.stop else box

/-- One step of the queue's task, or nothing when it has to wait or has ended. -/
def turn (box : Outbox) (tornDown : Bool) : Option Outbox :=
  if box.hasStopped then none else (box.select tornDown).map settleEnd

/-- Enough turns for everything that the task can do without new input. -/
def turnsLeft (box : Outbox) : Nat :=
  box.pending.length + 2 * box.incoming.items.length + box.cancels.items.length + 2

/-- Lets the task run until it has to wait. -/
def settle (box : Outbox) (tornDown : Bool) : Outbox :=
  go box.turnsLeft box
where
  /-- At most `turns` turns. -/
  go : Nat → Outbox → Outbox
    | 0, box => box
    | turns + 1, box =>
        match box.turn tornDown with
        | none => box
        | some box => go turns box

/-- The writer takes everything that still comes, one message at a time. -/
def drain (box : Outbox) (tornDown : Bool) : List Message × Outbox :=
  go (box.slot.items.length + box.queue.length) box
where
  /-- At most so many messages. -/
  go : Nat → Outbox → List Message × Outbox
    | 0, box => ([], box)
    | messages + 1, box =>
        match box.slot.items with
        | [] => ([], box)
        | message :: _ =>
            let box := { box with slot := (box.slot.take 1).2 }
            let (rest, box) := go messages (box.settle tornDown)
            (message :: rest, box)

end Outbox

end PeerWire

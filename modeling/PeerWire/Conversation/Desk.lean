import PeerWire.Conversation
import PeerWire.Mailbox

/-!
A conversation with the four mailboxes it hands things to and the shared field it reads,
for callers that wait for each call to return. A call that meets a full mailbox lets
time pass: up to the limit of the hand-over where it has one, and otherwise until the
caller's patience is over, when the call is given up with whatever it had changed.
-/

namespace PeerWire

/-- A conversation and its surroundings. -/
structure Desk where
  conversation : Conversation
  /-- What we hold ourselves. -/
  field : Bitfield
  status : Status := {}
  now : Nat := 0
  /-- Limit on handing something to the scheduler. -/
  handOff : Nat
  outbound : Mailbox Message
  cancels : Mailbox BlockRef
  requests : Mailbox PieceRequest
  deliveries : Mailbox Delivery
deriving Repr, Inhabited

/-- How a call ends. -/
inductive CallResult where
  | returned (outcome : Except Failure Unit)
  | blocked

namespace Desk

/-- Tries to hand something over without waiting. -/
def attempt (desk : Desk) : Errand → Receipt × Desk
  | .cancel ref =>
      let (receipt, cancels) := desk.cancels.offer ref
      (receipt, { desk with cancels })
  | .deliver block =>
      let (receipt, deliveries) := desk.deliveries.offer (.block desk.conversation.addr block)
      (receipt, { desk with deliveries })
  | .announce interested _ =>
      let (receipt, outbound) := desk.outbound.offer (.ofInterest interested)
      (receipt, { desk with outbound })
  | .request remote =>
      let (receipt, requests) := desk.requests.offer (desk.conversation.pieceRequest remote)
      (receipt, { desk with requests })

/-- Goes on with the handling after a hand-over. -/
def resume (desk : Desk) (errand : Errand) (result : HandOver) : Desk × Progress :=
  let (conversation, progress) := desk.conversation.resume desk.field errand result
  ({ desk with conversation }, progress)

/-- The most hand-overs in one handling: a block, an announcement and a request. -/
def mostErrands : Nat := 3

/-- Carries a handling to its end, or until the moment `giveUp`. -/
def carry (giveUp : Nat) : Nat → Desk → Progress → Desk × CallResult
  | _, desk, .done outcome => (desk, .returned outcome)
  | 0, desk, .handing _ => (desk, .blocked)
  | hops + 1, desk, .handing errand =>
      let (receipt, desk) := desk.attempt errand
      match receipt with
      | .accepted =>
          let (desk, progress) := desk.resume errand .accepted
          carry giveUp hops desk progress
      | .closed =>
          let (desk, progress) := desk.resume errand .closed
          carry giveUp hops desk progress
      | .full =>
          if errand.isTimed && desk.now + desk.handOff ≤ giveUp then
            let (desk, progress) :=
              { desk with now := desk.now + desk.handOff : Desk }.resume errand .expired
            carry giveUp hops desk progress
          else ({ desk with now := giveUp }, .blocked)

/-- Shows the present state to others. -/
def publish (desk : Desk) : Desk :=
  { desk with status := desk.conversation.status }

/-- Waits for a handling that has been started, at most for `patience`. -/
def waitFor (desk : Desk) (patience : Nat) (started : Conversation × Progress) :
    Desk × CallResult :=
  carry (desk.now + patience) mostErrands { desk with conversation := started.1 } started.2

/-- Handles a message. The new state is shown unless the call is given up. -/
def handle (desk : Desk) (patience : Nat) (message : Message) : Desk × CallResult :=
  match desk.waitFor patience (desk.conversation.receive desk.field desk.now message) with
  | (desk, .returned outcome) => (desk.publish, .returned outcome)
  | (desk, .blocked) => (desk, .blocked)

/-- Recomputes our interest and nothing else. -/
def checkInterested (desk : Desk) (patience : Nat) : Desk × CallResult :=
  desk.waitFor patience (desk.conversation.reviewInterest desk.field false)

/-- Asks for a block where that is allowed, and nothing else. -/
def tryRequest (desk : Desk) (patience : Nat) : Desk × CallResult :=
  desk.waitFor patience (desk.conversation, desk.conversation.considerRequest desk.field)

/-- The remote is alive. -/
def recordKeepAlive (desk : Desk) : Desk :=
  { desk with conversation := desk.conversation.recordKeepAlive desk.now : Desk }.publish

/-- The remote has named itself. -/
def setRemoteId (desk : Desk) (peerId : PeerId) : Desk :=
  { desk with conversation := desk.conversation.setRemoteId peerId : Desk }.publish

end Desk

end PeerWire

import PeerWire.Report

/-!
The protocol state of one connection and what an inbound message does to it.

Handling a message may have to hand something over: a cancellation or an interest
message to the write queue, a block or a piece request to the scheduler. A handling
therefore proceeds from one hand-over to the next: `Conversation.receive` starts it and
`Conversation.resume` goes on with the outcome of a hand-over. What was changed before a
hand-over stays changed, whatever becomes of the hand-over.

Interest is announced on its edges only: when the remote comes to hold something that
we lack, and when that ceases.
-/

namespace PeerWire

/-- The flags of both sides and what the remote holds. -/
structure Standing where
  amChoking : Bool := true
  amInterested : Bool := false
  peerChoking : Bool := true
  peerInterested : Bool := false
  remote : Bitfield
  lastKeepAlive : Option Nat := none
deriving DecidableEq, Repr, Inhabited

/-- The protocol state of one connection. -/
structure Conversation where
  addr : String
  pieces : UInt64
  /-- The channel on which the scheduler answers our piece requests. -/
  channel : Nat
  remoteId : Option PeerId := none
  standing : Standing
deriving DecidableEq, Repr, Inhabited

/-- Something to hand over. An announcement knows whether a piece request is to be
considered after it. -/
inductive Errand where
  | cancel (ref : BlockRef)
  | deliver (block : Block)
  | announce (interested : Bool) (thenRequest : Bool)
  | request (remote : Bitfield)
deriving DecidableEq, Repr, Inhabited

/-- How a hand-over ends. -/
inductive HandOver where
  | accepted
  | closed
  /-- There was no room for as long as the hand-over may take. -/
  | expired
deriving DecidableEq, Repr, Inhabited

/-- Where the handling of a message stands. -/
inductive Progress where
  | done (outcome : Except Failure Unit)
  | handing (errand : Errand)

/-- Only the hand-overs to the scheduler have a time limit. -/
def Errand.isTimed : Errand → Bool
  | .deliver _ | .request _ => true
  | .cancel _ | .announce _ _ => false

/-- The interest message for a flag. -/
def Message.ofInterest (interested : Bool) : Message :=
  if interested then .interested else .notInterested

namespace Progress

/-- The handling has succeeded. -/
def ok : Progress := .done (.ok ())

/-- The handling has failed. -/
def fail (fault : PeerFault) : Progress := .done (.error (.peer fault))

end Progress

namespace Conversation

/-- A connection about which nothing is known. -/
def start (addr : String) (pieces : UInt64) (channel : Nat) : Conversation where
  addr
  pieces
  channel
  standing := { remote := .empty pieces }

/-- What others may see of the connection. -/
def status (c : Conversation) : Status where
  remoteId := c.remoteId
  amChoking := c.standing.amChoking
  amInterested := c.standing.amInterested
  peerChoking := c.standing.peerChoking
  peerInterested := c.standing.peerInterested
  remotePieces := c.standing.remote.count
  lastKeepAlive := c.standing.lastKeepAlive

/-- The remote has named itself. -/
def setRemoteId (c : Conversation) (peerId : PeerId) : Conversation :=
  { c with remoteId := some peerId }

/-- The remote is alive. -/
def recordKeepAlive (c : Conversation) (now : Nat) : Conversation :=
  { c with standing := { c.standing with lastKeepAlive := some now } }

/-- Asks for a block when we want something, may ask, and still lack a piece. -/
def considerRequest (c : Conversation) (field : Bitfield) : Progress :=
  if !c.standing.amInterested || c.standing.peerChoking then .ok
  else if field.isComplete then .ok
  else .handing (.request c.standing.remote)

/-- What follows an interest that is settled. -/
def afterInterest (c : Conversation) (field : Bitfield) (thenRequest : Bool) : Progress :=
  if thenRequest then c.considerRequest field else .ok

/-- Recomputes our interest, and announces it when it has changed. -/
def reviewInterest (c : Conversation) (field : Bitfield) (thenRequest : Bool) :
    Conversation × Progress :=
  let interesting := field.lacksSomeOf c.standing.remote
  if interesting = c.standing.amInterested then (c, c.afterInterest field thenRequest)
  else
    ({ c with standing := { c.standing with amInterested := interesting } },
      .handing (.announce interesting thenRequest))

/-- Starts to handle a message. `field` is what we hold ourselves. -/
def receive (c : Conversation) (field : Bitfield) (now : Nat) (message : Message) :
    Conversation × Progress :=
  match message with
  | .keepAlive => (c.recordKeepAlive now, .ok)
  | .choke => ({ c with standing := { c.standing with peerChoking := true } }, .ok)
  | .unchoke =>
      { c with standing := { c.standing with peerChoking := false } : Conversation }.reviewInterest
        field true
  | .interested => ({ c with standing := { c.standing with peerInterested := true } }, .ok)
  | .notInterested => ({ c with standing := { c.standing with peerInterested := false } }, .ok)
  | .havePiece index =>
      match c.standing.remote.set index.toNat with
      | .error fault => (c, .fail fault)
      | .ok remote =>
          { c with standing := { c.standing with remote } : Conversation }.reviewInterest field true
  | .bitfield bits =>
      match Bitfield.ofBytes? c.pieces bits with
      | .error fault => (c, .fail fault)
      | .ok remote =>
          { c with standing := { c.standing with remote } : Conversation }.reviewInterest field true
  | .request _ => (c, .ok)
  | .piece block => (c, .handing (.deliver block))
  | .cancel ref => (c, .handing (.cancel ref))
  | .port _ => (c, .ok)
  | .unknown id _ => (c, .fail (.unknownMessage id))

/-- Goes on after a hand-over. A piece request that finds no room is given up; a block
that finds none is a failure; what has no time limit goes on waiting. -/
def resume (c : Conversation) (field : Bitfield) (errand : Errand) (result : HandOver) :
    Conversation × Progress :=
  match errand, result with
  | .cancel _, .accepted => (c, .ok)
  | .cancel _, .closed => (c, .fail (.channelClosed "write queue cancel"))
  | .deliver _, .accepted => c.reviewInterest field true
  | .deliver _, .closed => (c, .fail (.channelClosed "scheduler deliveries"))
  | .deliver _, .expired => (c, .fail .schedulerStalled)
  | .announce _ thenRequest, .accepted => (c, c.afterInterest field thenRequest)
  | .announce _ _, .closed => (c, .fail (.channelClosed "write queue"))
  | .request _, .accepted => (c, .ok)
  | .request _, .closed => (c, .fail (.channelClosed "scheduler requests"))
  | .request _, .expired => (c, .ok)
  | errand, .expired => (c, .handing errand)

/-- The piece request for what the remote held when the request was decided on. -/
def pieceRequest (c : Conversation) (remote : Bitfield) : PieceRequest where
  addr := c.addr
  remote
  replyTo := c.channel

end Conversation

end PeerWire

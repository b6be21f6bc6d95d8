import PeerWire.Bitfield
import PeerWire.Handshake
import PeerWire.Message

/-!
What a connection tells others: block deliveries and piece requests for the
scheduler, one exit report for its owner, and a status that anyone may look at.
-/

namespace PeerWire

/-- Why a connection ended. -/
inductive Ending where
  /-- Resolving, dialing or a check before dialing failed. -/
  | connect (text : String)
  | handshake (text : String)
  /-- The established transport failed. -/
  | io (text : String)
  /-- The remote broke the protocol, or its message could not be acted on. -/
  | protocol (text : String)
  | streamClosed
  | cancelled
deriving DecidableEq, Repr, Inhabited

/-- The text of an exit reason. -/
protected def Ending.toString : Ending → String
  | .connect text => "connect_error: " ++ text
  | .handshake text => "handshake_error: " ++ text
  | .io text => "io_error: " ++ text
  | .protocol text => "protocol_error: " ++ text
  | .streamClosed => "stream_closed"
  | .cancelled => "cancelled"

/-- A failed read is the transport's failure or the remote's. -/
def Ending.ofReadFailure (failure : Failure) : Ending :=
  if failure.isTransport then .io ("read: " ++ failure.message)
  else .protocol ("decode: " ++ failure.message)

/-- The one report of a connection about its end. -/
structure ExitReport where
  addr : String
  reason : Ending
deriving DecidableEq, Repr, Inhabited

/-- What a connection hands to the scheduler. -/
inductive Delivery where
  | block (addr : String) (block : Block)
  /-- The connection is gone; what it was to fetch has to be assigned anew. -/
  | disconnected (addr : String)
deriving DecidableEq, Repr, Inhabited

/-- Asks the scheduler for a block that this remote can serve. The answer goes to the
channel named by `replyTo`. -/
structure PieceRequest where
  addr : String
  remote : Bitfield
  replyTo : Nat
deriving DecidableEq, Repr, Inhabited

/-- A read-only view of a connection. -/
structure Status where
  remoteId : Option PeerId := none
  amChoking : Bool := true
  amInterested : Bool := false
  peerChoking : Bool := true
  peerInterested : Bool := false
  remotePieces : Nat := 0
  lastKeepAlive : Option Nat := none
deriving DecidableEq, Repr, Inhabited

end PeerWire

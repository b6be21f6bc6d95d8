/-!
What can go wrong on a connection, by cause. Every failure has one text, given by
`Failure.message`; whether a failure on the read side counts against the transport
or against the remote is decided by its cause alone, never by its text.
-/

namespace PeerWire

/-- Faults of the framing: a frame that is not there yet, too large or malformed. -/
inductive FrameFault where
  /-- A frame of `needed` bytes of which only `available` are there. -/
  | incomplete (needed available : Nat)
  /-- Too few bytes for a length. -/
  | tooShort (length : Nat)
  /-- A length above the limit of the reader. -/
  | tooLarge (length limit : Nat)
  | malformed (text : String)
deriving DecidableEq, Repr, Inhabited

/-- Faults of a peer connection above the framing. -/
inductive PeerFault where
  | bitfieldLength (expected actual pieces : Nat)
  | spareBits (pieces : Nat)
  | pieceOutOfRange (index pieces : Nat)
  | unknownMessage (id : UInt8)
  | handshake (text : String)
  | foreignSwarm
  | timeout (activity : String)
  | channelClosed (channel : String)
  | schedulerStalled
deriving DecidableEq, Repr, Inhabited

/-- The kinds of transport failure that are told apart. -/
inductive TransportFault where
  | unexpectedEnd
  | connectionReset
  | connectionRefused
  | networkUnreachable
  | unspecified
deriving DecidableEq, Repr, Inhabited

/-- Any failure of a connection. -/
inductive Failure where
  | frame (fault : FrameFault)
  | peer (fault : PeerFault)
  | transport (fault : TransportFault) (text : String)
  | other (text : String)
deriving DecidableEq, Repr, Inhabited

/-- The text of a framing fault. -/
def FrameFault.message : FrameFault → String
  | .incomplete needed available =>
      s!"Incomplete message: need {needed} bytes, got {available}"
  | .tooShort length => s!"Message too short: {length} bytes"
  | .tooLarge length limit => s!"Frame of {length} bytes exceeds the limit of {limit} bytes"
  | .malformed text => "Invalid message format: " ++ text

/-- The text of a peer fault. -/
def PeerFault.message : PeerFault → String
  | .bitfieldLength expected actual pieces =>
      s!"Invalid bitfield: expected {expected} bytes for {pieces} pieces, got {actual}"
  | .spareBits pieces => s!"Invalid bitfield: spare bits past piece {pieces} are set"
  | .pieceOutOfRange index pieces => s!"Piece index {index} out of range for {pieces} pieces"
  | .unknownMessage id => s!"Unknown message id: {id.toNat}"
  | .handshake text => "Handshake failed: " ++ text
  | .foreignSwarm => "Handshake info hash does not match the swarm"
  | .timeout activity => activity ++ " timed out"
  | .channelClosed channel => "Channel closed: " ++ channel
  | .schedulerStalled => "Scheduler did not accept a delivered block in time"

namespace Failure

/-- The text of a failure. -/
def message : Failure → String
  | .frame fault => fault.message
  | .peer fault => fault.message
  | .transport _ text => text
  | .other text => text

/-- A read that failed with this is the transport's failure: an error of the
transport itself, or a limit on the time it may take. -/
def isTransport : Failure → Bool
  | .transport _ _ => true
  | .peer (.timeout _) => true
  | _ => false

/-- The stream ended before the bytes that had to come. -/
def earlyEnd : Failure := .transport .unexpectedEnd "early eof"

/-- The stream ended inside a frame. -/
def bytesRemaining : Failure := .transport .unspecified "bytes remaining on stream"

end Failure

end PeerWire

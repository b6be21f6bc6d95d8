import PeerWire.Handshake
import PeerWire.Message.Stream

/-!
The wire under a connection. It is either adopted, with its handshake already done, or
it is to be dialed. The inbound half is whole messages on an adopted wire and bytes on
a dialed one; the outbound half takes whole messages, and records those it took.

What the other end does is a matter of the surroundings: when a dial comes back, what
arrives, when a write can complete and how it fails. This module only says what is
seen of it from our side.
-/

namespace PeerWire

/-! ### The inbound half -/

/-- Whether more can arrive on a stream of bytes. -/
inductive StreamState where
  | flowing
  | ended
  | broken (failure : Failure)
deriving DecidableEq, Repr, Inhabited

/-- What can still be read. -/
inductive Inbound where
  | messages (queue : List (Except Failure Message)) (ended : Bool)
  | bytes (limit : Nat) (buffer : List UInt8) (state : StreamState)

instance : Inhabited Inbound := ⟨.messages [] false⟩

/-- How a read ends. -/
inductive ReadOutcome where
  | message (message : Message)
  | ended
  | failed (failure : Failure)
deriving DecidableEq, Repr

namespace Inbound

/-- The outcome of a read, or nothing while it has to wait. -/
def poll : Inbound → Option (ReadOutcome × Inbound)
  | .messages (.ok message :: rest) ended => some (.message message, .messages rest ended)
  | .messages (.error failure :: rest) ended => some (.failed failure, .messages rest ended)
  | .messages [] ended => if ended then some (.ended, .messages [] ended) else none
  | .bytes limit buffer state =>
      match Stream.next limit buffer with
      | .message message rest => some (.message message, .bytes limit rest state)
      | .refused failure => some (.failed failure, .bytes limit buffer state)
      | .more _ =>
          match state with
          | .flowing => none
          | .broken failure => some (.failed failure, .bytes limit buffer state)
          | .ended =>
              if buffer.isEmpty then some (.ended, .bytes limit buffer state)
              else some (.failed .bytesRemaining, .bytes limit buffer state)

/-- Whether nothing more can arrive. -/
def isOver : Inbound → Bool
  | .messages _ ended => ended
  | .bytes _ _ state => state ≠ .flowing

/-- Whether the other end has ended its side. -/
def hasEnded : Inbound → Bool
  | .messages _ ended => ended
  | .bytes _ _ state => state = .ended

/-- How the stream broke, if it did. -/
def breakage? : Inbound → Option Failure
  | .bytes _ _ (.broken failure) => some failure
  | _ => none

/-- The other end ends its side. -/
def finish : Inbound → Inbound
  | .messages queue _ => .messages queue true
  | .bytes limit buffer .flowing => .bytes limit buffer .ended
  | inbound => inbound

/-- A message, or a failure of the wire, arrives. Nothing arrives after the end of a
stream of bytes. -/
def arrive (item : Except Failure Message) : Inbound → Inbound
  | .messages queue ended => .messages (queue ++ [item]) ended
  | .bytes limit buffer .flowing =>
      match item with
      | .ok message => .bytes limit (buffer ++ Frame.encode message) .flowing
      | .error failure => .bytes limit buffer (.broken failure)
  | inbound => inbound

/-- Bytes arrive. -/
def arriveBytes (bytes : List UInt8) : Inbound → Inbound
  | .bytes limit buffer .flowing => .bytes limit (buffer ++ bytes) .flowing
  | inbound => inbound

/-- The bytes that wait to be read. -/
def waiting : Inbound → List UInt8
  | .messages _ _ => []
  | .bytes _ buffer _ => buffer

/-- The bytes that wait were looked at, and these are left. -/
def leaving (rest : List UInt8) : Inbound → Inbound
  | .messages queue ended => .messages queue ended
  | .bytes limit _ state => .bytes limit rest state

/-- A bound on the number of reads that do not have to wait. -/
def size : Inbound → Nat
  | .messages queue _ => queue.length + 1
  | .bytes _ buffer _ => buffer.length + 1

end Inbound

/-! ### The outbound half -/

/-- What has been written, and whether a write can complete. -/
structure Outbound where
  /-- A write can complete now. -/
  isOpen : Bool := true
  /-- Every write that completes fails with this text. -/
  failure : Option String := none
  /-- Our handshake has been sent. -/
  hasGreeted : Bool := false
  /-- The messages written, oldest first. -/
  written : List Message := []
  /-- How often the wire was closed. -/
  closes : Nat := 0
deriving DecidableEq, Repr, Inhabited

/-! ### Both halves -/

/-- How a dial stands. -/
inductive Dial where
  | pending
  | connected
  | failed (text : String)
deriving DecidableEq, Repr, Inhabited

/-- The wire of a connection. -/
structure Transport where
  /-- The remote's id on an adopted wire; nothing when the wire is to be dialed. -/
  adopted : Option PeerId
  dial : Dial := .pending
  /-- How often a dial was started. -/
  dials : Nat := 0
  inbound : Inbound
  outbound : Outbound := {}
deriving Inhabited

namespace Transport

/-- An adopted wire to the given remote. -/
def adopt (peerId : PeerId) : Transport where
  adopted := some peerId
  inbound := .messages [] false

/-- A wire to be dialed; `dial` is what becomes of the attempt. -/
def toDial (frameLimit : Nat) (dial : Dial) : Transport where
  adopted := none
  dial
  inbound := .bytes frameLimit [] .flowing

/-- The bytes sent on a dialed wire. -/
def bytesSent (identity : Identity) (transport : Transport) : List UInt8 :=
  (if transport.outbound.hasGreeted then (Handshake.ours identity).encode else []) ++
    transport.outbound.written.flatMap Frame.encode

end Transport

end PeerWire

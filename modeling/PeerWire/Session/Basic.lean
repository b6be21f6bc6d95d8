import PeerWire.Conversation
import PeerWire.Outbox
import PeerWire.Settings
import PeerWire.Teardown
import PeerWire.Transport

/-!
A connection to one remote peer, as the state that its tasks share.

Three tasks make up a connection. The outbox's task moves messages towards the writer.
The writer's task brings the wire up, announces what we hold, starts the reader and
from then on owns the writing half. The reader's task owns the conversation: it reads a
message, has it handled, and reads the next. The owner of the connection may call for
its end at any time; each of its calls is one more task.

A task is described by the point at which it waits. Deadlines are moments of the clock.
-/

namespace PeerWire

/-- Something that the writer writes. -/
inductive WriteJob where
  /-- What we hold, as the first message. -/
  | announce (bits : List UInt8)
  /-- A message from the outbox. -/
  | relay (message : Message)
  | keepAlive
deriving DecidableEq, Repr, Inhabited

/-- The message that a job writes. -/
def WriteJob.message : WriteJob → Message
  | .announce bits => .bitfield bits
  | .relay message => message
  | .keepAlive => .keepAlive

/-- How a failure of the job is reported. -/
def WriteJob.activity : WriteJob → String
  | .announce _ => "bitfield announce"
  | .relay _ => "write"
  | .keepAlive => "keep-alive"

/-- Where the writer waits. -/
inductive WriterPhase where
  | starting
  | dialing (deadline : Nat)
  /-- Exchanging handshakes; `sent` once ours is on its way. -/
  | greeting (deadline : Nat) (sent : Bool)
  | writing (job : WriteJob) (deadline : Option Nat)
  /-- Waiting for a message, or for the moment to show that we are alive. -/
  | idle (keepAliveAt : Nat)
  /-- Its own call for the end; `up` when there is a wire to close afterwards. -/
  | tearingDown (call : Nat) (up : Bool)
  | closing (deadline : Option Nat)
  /-- Waiting for the reader to end. -/
  | joining
  | finished
  /-- Stopped by an addition of times that the clock cannot represent. -/
  | crashed
deriving DecidableEq, Repr, Inhabited

/-- Where the reader waits. -/
inductive ReaderPhase where
  /-- Not started. -/
  | absent
  | reading (deadline : Option Nat)
  | handling (errand : Errand) (deadline : Option Nat)
  /-- Its own call for the end. -/
  | tearingDown (call : Nat)
  | finished
deriving DecidableEq, Repr, Inhabited

/-- A connection. -/
structure Session where
  settings : Settings
  identity : Identity
  /-- The number of pieces in the swarm. -/
  pieces : UInt64
  /-- What we hold ourselves; the swarm may change it at any time. -/
  field : Bitfield
  now : Nat := 0
  teardown : Teardown
  outbox : Outbox
  requests : Mailbox PieceRequest
  conversation : Conversation
  status : Status := {}
  transport : Transport
  writer : WriterPhase := .starting
  reader : ReaderPhase := .absent
  /-- The calls for the end that the owner has made, by number. -/
  ownerCalls : List Nat := []
  /-- How many piece requests are held by anyone, and with them a way to answer. -/
  responders : Nat := 0
deriving Inhabited

namespace Session

/-- Room in the mailboxes that a connection shares with the rest of the swarm. -/
structure Capacities where
  exits : Nat
  requests : Nat
  deliveries : Nat
deriving DecidableEq, Repr, Inhabited

/-- A connection before any of its tasks has taken a step. -/
def start (settings : Settings) (identity : Identity) (addr : String) (pieces : UInt64)
    (field : Bitfield) (capacities : Capacities) (transport : Transport) : Session where
  settings
  identity
  pieces
  field
  teardown := {
    addr
    handOff := settings.handOff
    exits := .ofCapacity capacities.exits
    deliveries := .ofCapacity capacities.deliveries }
  outbox := .start settings.outboundCapacity Settings.cancelCapacity Settings.slotCapacity
  requests := .ofCapacity capacities.requests
  conversation := .start addr pieces 0
  transport

/-! ### Time limits

On an adopted wire reads and writes take as long as they take. -/

/-- The moment at which a read that starts now is given up. -/
def readDeadline (s : Session) : Option Nat :=
  if s.transport.adopted.isSome then none
  else s.settings.readTimeout.map (Clock.timer s.now)

/-- The moment at which a write, or a close, that starts now is given up. -/
def writeDeadline (s : Session) : Option Nat :=
  if s.transport.adopted.isSome then none
  else some (Clock.timer s.now s.settings.ioTimeout)

/-- Whether a deadline has come. -/
def isDue (s : Session) (deadline : Option Nat) : Bool :=
  deadline.any (· ≤ s.now)

/-! ### Shared moves -/

/-- Shows the present protocol state to others. -/
def publish (s : Session) : Session :=
  { s with status := s.conversation.status }

/-- Starts a call for the end, which gets the number `s.teardown.nextCall`. -/
def trigger (s : Session) (reason : Ending) : Session :=
  { s with teardown := s.teardown.trigger reason s.now }

/-- One step of a call for the end. -/
def advanceCall (s : Session) (call : Nat) : Option Session :=
  (s.teardown.advance call s.now).map fun teardown => { s with teardown }

/-- Whether the conversation, and with it a sender into the outbox, is still there. -/
def hasConversation (s : Session) : Bool :=
  match s.reader with
  | .finished => false
  | .absent => !(s.writer matches .finished)
  | _ => true

/-- Whether anyone may still send into the outbox. -/
def hasSenders (s : Session) : Bool :=
  s.hasConversation || s.responders > 0

/-- The writer has stopped: nobody takes from the slot any more. -/
def stopWriter (s : Session) (phase : WriterPhase) : Session :=
  { s with writer := phase, outbox := { s.outbox with slot := s.outbox.slot.close } }

/-- Whether the connection has come to its end: the writer, which waits for the reader,
and the outbox have stopped. -/
def isClosed (s : Session) : Bool :=
  (s.writer matches .finished | .crashed) && s.outbox.hasStopped

/-- Whether the remote of a dialed wire sees that we have ended our side. -/
def hasHungUp (s : Session) : Bool :=
  s.transport.dial = .connected &&
    (s.transport.outbound.closes > 0 || (s.writer matches .finished | .crashed))

/-- Whether what the remote sends can still reach the reader. -/
def hasReader (s : Session) : Bool :=
  match s.reader with
  | .finished => false
  | .absent => !(s.writer matches .finished | .crashed | .tearingDown _ false)
  | _ => true

end Session

end PeerWire

import PeerWire.Session.Reader
import PeerWire.Session.Writer

/-!
The steps of a connection. A step belongs to one task, and any task that can take one
may be the next; between the steps, the surroundings may do whatever an `Event` says.
-/

namespace PeerWire

/-- The tasks of a connection. -/
inductive Task where
  | outbox
  | writer
  | reader
  /-- The owner's call for the end with this number. -/
  | call (number : Nat)
deriving DecidableEq, Repr, Inhabited

/-- What somebody outside a connection may put into one of its mailboxes. -/
inductive Parcel where
  /-- The report of another connection. -/
  | report (report : ExitReport)
  /-- The piece request of another connection. -/
  | request (request : PieceRequest)
  /-- A delivery of another connection. -/
  | delivery (delivery : Delivery)
  /-- An answer to a piece request of this connection. -/
  | answer (message : Message)
deriving DecidableEq, Repr, Inhabited

namespace Session

/-- One step of the outbox's task. -/
def stepOutbox (s : Session) : Option Session :=
  ({ s.outbox with hasSenders := s.hasSenders }.turn s.teardown.hasFired).map fun outbox =>
    { s with outbox }

/-- One step of a task, or nothing when it has to wait or has ended. -/
def step (s : Session) : Task → Option Session
  | .outbox => s.stepOutbox
  | .writer => s.stepWriter
  | .reader => s.stepReader
  | .call number => if number ∈ s.ownerCalls then s.advanceCall number else none

/-- Every task of the connection. -/
def tasks (s : Session) : List Task :=
  [.outbox, .writer, .reader] ++ s.ownerCalls.map .call

/-! ### The surroundings -/

/-- The remote sends a message, or the wire fails, if anybody is there to notice. -/
def remoteSends (s : Session) (item : Except Failure Message) : Receipt × Session :=
  if s.hasReader && !s.transport.inbound.isOver then
    (.accepted,
      { s with transport := { s.transport with inbound := s.transport.inbound.arrive item } })
  else (.closed, s)

/-- The remote sends bytes on a dialed wire. -/
def remoteSendsBytes (s : Session) (bytes : List UInt8) : Receipt × Session :=
  if s.transport.dial = .connected && !s.transport.inbound.isOver then
    (.accepted,
      { s with transport := { s.transport with
        inbound := s.transport.inbound.arriveBytes bytes } })
  else (.closed, s)

/-- The remote ends its side. -/
def remoteEnds (s : Session) : Session :=
  { s with transport := { s.transport with inbound := s.transport.inbound.finish } }

/-- A dial comes back. -/
def dialReturns (s : Session) (dial : Dial) : Session :=
  { s with transport := { s.transport with dial } }

/-- Writes can, or cannot, complete from here on. -/
def openGate (s : Session) (isOpen : Bool) : Session :=
  { s with transport := { s.transport with
    outbound := { s.transport.outbound with isOpen } } }

/-- Writes fail from here on. -/
def failWrites (s : Session) (text : String) : Session :=
  { s with transport := { s.transport with
    outbound := { s.transport.outbound with failure := some text } } }

/-- The swarm holds something else now. -/
def setField (s : Session) (field : Bitfield) : Session :=
  { s with field }

/-- Somebody who holds a piece request answers it. -/
def respond (s : Session) (message : Message) : Receipt × Session :=
  let (receipt, incoming) := s.outbox.incoming.offer message
  (receipt, { s with outbox := { s.outbox with incoming } })

/-- Somebody else's delivery. -/
def fillDelivery (s : Session) (delivery : Delivery) : Receipt × Session :=
  let (receipt, deliveries) := s.teardown.deliveries.offer delivery
  (receipt, { s with teardown := { s.teardown with deliveries } })

/-- Somebody outside puts something into a mailbox, or waits in line for the room.
Nobody else asks for pieces in the connection's name. -/
def post (s : Session) (party : Party) : Parcel → Receipt × Session
  | .report report =>
      let (receipt, exits) := s.teardown.exits.send party report
      (receipt, { s with teardown := { s.teardown with exits } })
  | .request request =>
      if request.replyTo = s.conversation.channel then (.closed, s)
      else
        let (receipt, requests) := s.requests.send party request
        (receipt, { s with requests })
  | .delivery delivery =>
      let (receipt, deliveries) := s.teardown.deliveries.send party delivery
      (receipt, { s with teardown := { s.teardown with deliveries } })
  | .answer message =>
      let (receipt, incoming) := s.outbox.incoming.send party message
      (receipt, { s with outbox := { s.outbox with incoming } })

/-- Somebody outside gives up its places in line. -/
def giveUp (s : Session) (party : Party) : Session :=
  { s with
    outbox := { s.outbox with incoming := s.outbox.incoming.leave party }
    requests := s.requests.leave party
    teardown := { s.teardown with
      exits := s.teardown.exits.leave party
      deliveries := s.teardown.deliveries.leave party } }

/-- The owner takes exit reports. -/
def takeExits (s : Session) (most : Nat) : List ExitReport × Session :=
  let (taken, exits) := s.teardown.exits.take most
  (taken, { s with teardown := { s.teardown with exits } })

/-- The scheduler takes piece requests. -/
def takeRequests (s : Session) (most : Nat) : List PieceRequest × Session :=
  let (taken, requests) := s.requests.take most
  (taken, { s with requests })

/-- The scheduler takes deliveries. -/
def takeDeliveries (s : Session) (most : Nat) : List Delivery × Session :=
  let (taken, deliveries) := s.teardown.deliveries.take most
  (taken, { s with teardown := { s.teardown with deliveries } })

/-- Nobody listens to exit reports any more. -/
def closeExits (s : Session) : Session :=
  { s with teardown := { s.teardown with exits := s.teardown.exits.close } }

/-- How many of the connection's own piece requests wait to be taken. -/
def waitingRequests (s : Session) : Nat :=
  s.requests.items.countP (·.replyTo == s.conversation.channel)

/-- Nobody listens to piece requests any more. -/
def closeRequests (s : Session) : Session :=
  { s with
    requests := s.requests.close
    responders := s.responders - s.waitingRequests }

/-- Nobody listens to deliveries any more. -/
def closeDeliveries (s : Session) : Session :=
  { s with teardown := { s.teardown with deliveries := s.teardown.deliveries.close } }

/-- The owner calls for the end. -/
def shutdown (s : Session) : Session :=
  { s.trigger .cancelled with ownerCalls := s.ownerCalls ++ [s.teardown.nextCall] }

/-- The owner stops waiting for a call it has made. -/
def abandonCall (s : Session) (number : Nat) : Session :=
  if number ∈ s.ownerCalls then { s with teardown := s.teardown.abandon number } else s

/-- Somebody lets go of a piece request, and with it of the way to answer. -/
def dropResponder (s : Session) : Session :=
  if s.responders > s.waitingRequests then { s with responders := s.responders - 1 } else s

/-- Time passes. -/
def wait (s : Session) (duration : Nat) : Session :=
  { s with now := s.now + duration }

/-- How many of the owner's calls have returned. -/
def shutdownsDone (s : Session) : Nat :=
  s.ownerCalls.countP s.teardown.hasEnded

/-- Anything that can happen to a connection. -/
inductive Event where
  | task (task : Task)
  | wait (duration : Nat)
  | remoteSends (item : Except Failure Message)
  | remoteSendsBytes (bytes : List UInt8)
  | remoteEnds
  | dialReturns (dial : Dial)
  | openGate (isOpen : Bool)
  | failWrites (text : String)
  | setField (field : Bitfield)
  | respond (message : Message)
  | fillDelivery (delivery : Delivery)
  | post (party : Party) (parcel : Parcel)
  | giveUp (party : Party)
  | takeExits (most : Nat)
  | takeRequests (most : Nat)
  | takeDeliveries (most : Nat)
  | closeExits
  | closeRequests
  | closeDeliveries
  | shutdown
  | abandonCall (number : Nat)
  | dropResponder

/-- The connection after an event; a task that has to wait changes nothing. -/
def after (s : Session) : Event → Session
  | .task task => (s.step task).getD s
  | .wait duration => s.wait duration
  | .remoteSends item => (s.remoteSends item).2
  | .remoteSendsBytes bytes => (s.remoteSendsBytes bytes).2
  | .remoteEnds => s.remoteEnds
  | .dialReturns dial => s.dialReturns dial
  | .openGate isOpen => s.openGate isOpen
  | .failWrites text => s.failWrites text
  | .setField field => s.setField field
  | .respond message => (s.respond message).2
  | .fillDelivery delivery => (s.fillDelivery delivery).2
  | .post party parcel => if party.isOutside then (s.post party parcel).2 else s
  | .giveUp party => if party.isOutside then s.giveUp party else s
  | .takeExits most => (s.takeExits most).2
  | .takeRequests most => (s.takeRequests most).2
  | .takeDeliveries most => (s.takeDeliveries most).2
  | .closeExits => s.closeExits
  | .closeRequests => s.closeRequests
  | .closeDeliveries => s.closeDeliveries
  | .shutdown => s.shutdown
  | .abandonCall number => s.abandonCall number
  | .dropResponder => s.dropResponder

/-- The connection after a history of events, oldest first. -/
def run (s : Session) (history : List Event) : Session :=
  history.foldl after s

end Session

end PeerWire

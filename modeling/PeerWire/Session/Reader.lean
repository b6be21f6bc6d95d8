import PeerWire.Session.Basic

/-!
The reader's task: one message after the other is read and handled. A teardown ends it
wherever it waits, except in its own call for the end; a message whose handling is cut
off that way is never shown in the status.
-/

namespace PeerWire.Session

/-- The reader stops, and gives up every place in line. -/
def stopReader (s : Session) : Session :=
  { s with
    reader := .finished
    outbox := { s.outbox with
      incoming := s.outbox.incoming.leave .reader
      cancels := s.outbox.cancels.leave .reader }
    requests := s.requests.leave .reader
    teardown := { s.teardown with deliveries := s.teardown.deliveries.leave .reader } }

/-- The reader calls for the end. -/
def failReader (s : Session) (reason : Ending) : Session :=
  { s.trigger reason with reader := .tearingDown s.teardown.nextCall }

/-- The reader turns to the next message. -/
def beginRead (s : Session) : Session :=
  { s with reader := .reading s.readDeadline }

/-- The reader goes where the handling of a message stands. -/
def proceed (s : Session) (handled : Conversation × Progress) : Session :=
  let s := { s with conversation := handled.1 }
  match handled.2 with
  | .done (.ok ()) => s.publish.beginRead
  | .done (.error failure) => s.publish.failReader (.protocol failure.message)
  | .handing errand =>
      let deadline :=
        if errand.isTimed then some (Clock.timer s.now s.settings.handOff) else none
      { s with reader := .handling errand deadline }

/-- The reader takes up what it has read. -/
def afterRead (s : Session) : ReadOutcome → Session
  | .message .keepAlive =>
      ({ s with conversation := s.conversation.recordKeepAlive s.now } : Session).publish.beginRead
  | .message message => s.proceed (s.conversation.receive s.field s.now message)
  | .ended => s.failReader .streamClosed
  | .failed failure => s.failReader (.ofReadFailure failure)

/-- A step of a read. -/
def stepRead (s : Session) (deadline : Option Nat) : Option Session :=
  if s.teardown.hasFired then some s.stopReader
  else
    match s.transport.inbound.poll with
    | some (outcome, inbound) =>
        some ({ s with transport := { s.transport with inbound } }.afterRead outcome)
    | none =>
        if s.isDue deadline then some (s.afterRead (.failed (.peer (.timeout "read")))) else none

/-- Tries to hand something over, waiting in line where there is no room. -/
def attempt (s : Session) : Errand → Receipt × Session
  | .cancel ref =>
      let (receipt, cancels) := s.outbox.cancels.send .reader ref
      (receipt, { s with outbox := { s.outbox with cancels } })
  | .deliver block =>
      let (receipt, deliveries) :=
        s.teardown.deliveries.send .reader (.block s.conversation.addr block)
      (receipt, { s with teardown := { s.teardown with deliveries } })
  | .announce interested _ =>
      let (receipt, incoming) := s.outbox.incoming.send .reader (.ofInterest interested)
      (receipt, { s with outbox := { s.outbox with incoming } })
  | .request remote =>
      let (receipt, requests) := s.requests.send .reader (s.conversation.pieceRequest remote)
      let responders := if receipt = .accepted then s.responders + 1 else s.responders
      (receipt, { s with requests, responders })

/-- Whether the reader waits in line for the errand already. -/
def isInLine (s : Session) : Errand → Bool
  | .cancel _ => .reader ∈ s.outbox.cancels.line
  | .deliver _ => .reader ∈ s.teardown.deliveries.line
  | .announce _ _ => .reader ∈ s.outbox.incoming.line
  | .request _ => .reader ∈ s.requests.line

/-- The reader gives up its place in line for the errand. -/
def leaveLine (s : Session) : Errand → Session
  | .cancel _ =>
      { s with outbox := { s.outbox with cancels := s.outbox.cancels.leave .reader } }
  | .deliver _ =>
      { s with teardown := { s.teardown with
        deliveries := s.teardown.deliveries.leave .reader } }
  | .announce _ _ =>
      { s with outbox := { s.outbox with incoming := s.outbox.incoming.leave .reader } }
  | .request _ => { s with requests := s.requests.leave .reader }

/-- The handling goes on after a hand-over. -/
def resume (s : Session) (errand : Errand) (result : HandOver) : Session :=
  s.proceed (s.conversation.resume s.field errand result)

/-- A step of a hand-over. -/
def stepHandling (s : Session) (errand : Errand) (deadline : Option Nat) : Option Session :=
  if s.teardown.hasFired then some s.stopReader
  else
    match s.attempt errand with
    | (.accepted, s') => some (s'.resume errand .accepted)
    | (.closed, s') => some (s'.resume errand .closed)
    | (.full, s') =>
        if s.isDue deadline then some ((s'.leaveLine errand).resume errand .expired)
        else if s.isInLine errand then none
        else some s'

/-- One step of the reader's task, or nothing when it has to wait or has ended. -/
def stepReader (s : Session) : Option Session :=
  match s.reader with
  | .reading deadline => s.stepRead deadline
  | .handling errand deadline => s.stepHandling errand deadline
  | .tearingDown call =>
      if s.teardown.hasEnded call then some s.stopReader else s.advanceCall call
  | .absent | .finished => none

end PeerWire.Session

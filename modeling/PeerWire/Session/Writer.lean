import PeerWire.Session.Basic

/-!
The writer's task: bringing the wire up, announcing, relaying, keeping alive, closing.

Until the wire is up, a teardown ends the task at once and nothing is closed. From then
on the task ends by closing the wire and waiting for the reader. A write that has been
started is not interrupted by a teardown. While the task waits for a message, a
teardown goes before a message, and a message before a keep-alive.
-/

namespace PeerWire.Session

/-- The writer calls for the end; `up` when there is a wire to close afterwards. -/
def failWriter (s : Session) (reason : Ending) (up : Bool) : Session :=
  { s.trigger reason with writer := .tearingDown s.teardown.nextCall up }

/-- The writer starts to write. -/
def beginWrite (s : Session) (job : WriteJob) : Session :=
  { s with writer := .writing job s.writeDeadline }

/-- The wire is up: the remote is known, and the announcement begins. -/
def establish (s : Session) (peerId : PeerId) : Session :=
  let s := { s with
    teardown := s.teardown.markEstablished
    conversation := s.conversation.setRemoteId peerId }
  s.publish.beginWrite (.announce s.field.bits)

/-- The first step: nothing is dialed when our field is not of the swarm's size. -/
def startWriter (s : Session) : Session :=
  if s.teardown.hasFired then s.stopWriter .finished
  else if s.field.pieces ≠ s.pieces then
    s.failWriter (.connect
      s!"local bitfield covers {s.field.size} pieces, swarm has {s.pieces.toNat}") false
  else
    match s.transport.adopted with
    | some peerId => s.establish peerId
    | none =>
        { s with
          transport := { s.transport with dials := s.transport.dials + 1 }
          writer := .dialing (Clock.timer s.now s.settings.connectTimeout) }

/-- A step of the dial. -/
def stepDial (s : Session) (deadline : Nat) : Option Session :=
  if s.teardown.hasFired then some (s.stopWriter .finished)
  else
    match s.transport.dial with
    | .connected =>
        some { s with writer := .greeting (Clock.timer s.now s.settings.ioTimeout) false }
    | .failed text => some (s.failWriter (.connect text) false)
    | .pending =>
        if deadline ≤ s.now then
          some (s.failWriter (.connect (PeerFault.timeout "connect").message) false)
        else none

/-- A handshake that takes too long. -/
def greetingTimedOut (s : Session) : Session :=
  s.failWriter (.handshake (PeerFault.timeout "handshake").message) false

/-- A step of the handshake. -/
def stepGreeting (s : Session) (deadline : Nat) (sent : Bool) : Option Session :=
  if s.teardown.hasFired then some (s.stopWriter .finished)
  else if !sent then
    if s.transport.outbound.isOpen then
      match s.transport.outbound.failure with
      | some text => some (s.failWriter (.handshake text) false)
      | none =>
          let outbound := { s.transport.outbound with hasGreeted := true }
          some { s with
            transport := { s.transport with outbound }
            writer := .greeting deadline true }
    else if deadline ≤ s.now then some s.greetingTimedOut
    else none
  else
    match Handshake.receive s.identity.infoHash s.transport.inbound.waiting
        s.transport.inbound.hasEnded with
    | .accepted peerId rest =>
        let inbound := s.transport.inbound.leaving rest
        some ({ s with transport := { s.transport with inbound } }.establish peerId)
    | .refused failure _ => some (s.failWriter (.handshake failure.message) false)
    | .waiting =>
        match s.transport.inbound.breakage? with
        | some failure => some (s.failWriter (.handshake failure.message) false)
        | none => if deadline ≤ s.now then some s.greetingTimedOut else none

/-- What follows a write that succeeded. The first one starts the reader; after any
later one the next keep-alive is due one interval from now, if the clock can name that
moment. -/
def afterWrite (s : Session) : WriteJob → Session
  | .announce _ =>
      { s with
        reader := .reading s.readDeadline
        writer := .idle (Clock.timer s.now s.settings.keepAlive) }
  | .relay _ | .keepAlive =>
      match Clock.after? s.now s.settings.keepAlive with
      | some keepAliveAt => { s with writer := .idle keepAliveAt }
      | none => s.stopWriter .crashed

/-- What follows a write that failed. -/
def failWrite (s : Session) (job : WriteJob) (text : String) : Session :=
  s.failWriter (.io (job.activity ++ ": " ++ text)) true

/-- A step of a write. -/
def stepWrite (s : Session) (job : WriteJob) (deadline : Option Nat) : Option Session :=
  if s.transport.outbound.isOpen then
    match s.transport.outbound.failure with
    | some text => some (s.failWrite job text)
    | none =>
        let outbound := { s.transport.outbound with
          written := s.transport.outbound.written ++ [job.message] }
        some ({ s with transport := { s.transport with outbound } }.afterWrite job)
  else if s.isDue deadline then some (s.failWrite job (PeerFault.timeout "write").message)
  else none

/-- The writer starts to close the wire. -/
def beginClose (s : Session) : Session :=
  let outbound := { s.transport.outbound with closes := s.transport.outbound.closes + 1 }
  { s with transport := { s.transport with outbound }, writer := .closing s.writeDeadline }

/-- A step of the wait for something to write. -/
def stepIdle (s : Session) (keepAliveAt : Nat) : Option Session :=
  if s.teardown.hasFired then some s.beginClose
  else
    match s.outbox.slot.items with
    | message :: _ =>
        let outbox := { s.outbox with slot := (s.outbox.slot.take 1).2 }
        some ({ s with outbox }.beginWrite (.relay message))
    | [] =>
        if s.outbox.hasStopped then some (s.failWriter .cancelled true)
        else if keepAliveAt ≤ s.now then some (s.beginWrite .keepAlive)
        else none

/-- A step of the close. An adopted wire closes at once. -/
def stepClose (s : Session) (deadline : Option Nat) : Option Session :=
  if s.transport.adopted.isSome || s.transport.outbound.isOpen || s.isDue deadline then
    some { s with writer := .joining }
  else none

/-- One step of the writer's task, or nothing when it has to wait or has ended. -/
def stepWriter (s : Session) : Option Session :=
  match s.writer with
  | .starting => some s.startWriter
  | .dialing deadline => s.stepDial deadline
  | .greeting deadline sent => s.stepGreeting deadline sent
  | .writing job deadline => s.stepWrite job deadline
  | .idle keepAliveAt => s.stepIdle keepAliveAt
  | .tearingDown call up =>
      if s.teardown.hasEnded call then
        some (if up then s.beginClose else s.stopWriter .finished)
      else s.advanceCall call
  | .closing deadline => s.stepClose deadline
  | .joining =>
      match s.reader with
      | .absent | .finished => some (s.stopWriter .finished)
      | _ => none
  | .finished | .crashed => none

end PeerWire.Session

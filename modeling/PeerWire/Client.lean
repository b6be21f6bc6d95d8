import PeerWire.Assignment
import PeerWire.CommandLine.Arguments
import PeerWire.Session.Schedule

/-!
One connection together with the scheduler that serves it. They share what we hold, the
requests and deliveries that the connection hands over are the scheduler's inboxes, and
its answers go straight into the outbox of the connection.

`Client.step` is one step of any of the tasks, in any order; `Client.settle` is one
particular order of them, in which the scheduler moves when the connection cannot.
-/

namespace PeerWire

/-- A connection and its scheduler. -/
structure Client where
  session : Session
  scheduler : Scheduler
  /-- The piece that the scheduler is answering a request with. -/
  answering : Option UInt32 := none
deriving Inhabited

/-- The tasks of a client. The scheduler looks at one of its inboxes. -/
inductive ClientTask where
  | session (task : Task)
  | scheduler (inbox : Inbox)
deriving DecidableEq, Repr

namespace Client

/-- Room for exit reports. -/
def exitCapacity : Nat := 4

/-- A client that has not taken a step, on a wire that is to be dialed. -/
def start (arguments : Arguments) (identity : Identity) (dial : Dial) : Client where
  session := .start arguments.settings identity arguments.peer arguments.pieces arguments.field
    { exits := exitCapacity
      requests := Assignment.requestCapacity
      deliveries := Assignment.deliveryCapacity }
    (.toDial arguments.settings.frameLimit dial)
  scheduler := { blockSize := arguments.blockSize }

/-! ### The scheduler -/

/-- The scheduler takes a request, and finds a piece for it or drops it. -/
def takeRequest (c : Client) : Option Client :=
  match c.session.takeRequests 1 with
  | ([], _) => none
  | (request :: _, session) =>
      match c.scheduler.assign? session.field request.remote with
      | none => some { c with session := session.dropResponder }
      | some (piece, scheduler) =>
          some { session, scheduler, answering := some piece }

/-- The scheduler takes a delivery. -/
def takeDelivery (c : Client) : Option Client :=
  match c.session.takeDeliveries 1 with
  | ([], _) => none
  | (delivery :: _, session) =>
      let (scheduler, field) := c.scheduler.onDelivery session.field delivery
      some { c with session := session.setField field, scheduler }

/-- The scheduler tries to answer with a piece. -/
def answer (c : Client) (piece : UInt32) : Option Client :=
  let (receipt, session) := c.session.post .scheduler (.answer (c.scheduler.requestFor piece))
  match receipt with
  | .accepted => some { c with session := session.dropResponder, answering := none }
  | .closed =>
      some {
        session := session.dropResponder
        scheduler := c.scheduler.release piece
        answering := none }
  | .full =>
      if .scheduler ∈ c.session.outbox.incoming.line then none else some { c with session }

/-- One step of the scheduler, looking at the given inbox when it is idle. -/
def stepScheduler (c : Client) (inbox : Inbox) : Option Client :=
  match c.answering with
  | some piece => c.answer piece
  | none =>
      match inbox with
      | .requests => c.takeRequest
      | .deliveries => c.takeDelivery

/-! ### All tasks -/

/-- One step of a task, or nothing when it has to wait or has ended. -/
def step (c : Client) : ClientTask → Option Client
  | .session task => (c.session.step task).map fun session => { c with session }
  | .scheduler inbox => c.stepScheduler inbox

/-- Something happens in the surroundings of the connection. -/
def act (c : Client) (change : Session → Session) : Client :=
  { c with session := change c.session }

/-- Lets the connection run until it has to wait. -/
def settleSession (c : Client) : Client :=
  c.act fun session => (({ session } : Schedule).act id).settle.session

/-- A bound on the steps of the scheduler before something happens outside. -/
def turnsLeft (c : Client) : Nat :=
  8 + 4 * (c.session.transport.inbound.size + c.session.requests.items.length +
    c.session.teardown.deliveries.items.length)

/-- Lets all tasks run until they have to wait. -/
def settle (c : Client) : Client :=
  go c.turnsLeft c
where
  /-- At most so many steps of the scheduler. -/
  go : Nat → Client → Client
    | 0, c => c.settleSession
    | turns + 1, c =>
        let c := c.settleSession
        match c.stepScheduler .requests <|> c.stepScheduler .deliveries with
        | none => c
        | some c => go turns c

/-- Lets time pass up to a moment, with a stop at every deadline on the way. -/
def advanceTo (c : Client) (goal : Nat) : Client :=
  go (goal - c.session.now) c
where
  /-- Past at most so many deadlines. -/
  go : Nat → Client → Client
    | 0, c => c
    | stops + 1, c =>
        match (Schedule.nextDeadline? c.session).filter (· ≤ goal) with
        | some deadline => go stops (c.act fun s => { s with now := deadline }).settle
        | none => c.act fun s => { s with now := goal }

/-- The owner calls for the end of the connection. -/
def shutdown (c : Client) : Client :=
  (c.act fun session => (({ session } : Schedule).shutdown).session).settle

/-- The report about the end of the connection, once there is one. -/
def exit? (c : Client) : Option ExitReport :=
  c.session.teardown.exits.items.head?

end Client

end PeerWire

import PeerWire.Session.Step

/-!
One particular order of the steps of a connection. Tasks that can go on wait their turn
in the order in which they became able to, and a task keeps its turn until it has to
wait. Time stands still while any task can go on; when it passes, it stops at every
deadline on the way.
-/

namespace PeerWire

/-- A connection and the tasks that wait for their turn. -/
structure Schedule where
  session : Session
  ready : List Task := []
deriving Inhabited

namespace Schedule

/-- Queues every task that can go on and does not wait for its turn yet; `current` has
its turn. -/
def wake (r : Schedule) (current : Option Task) : Schedule :=
  let woken := r.session.tasks.filter fun task =>
    current ≠ some task && !r.ready.contains task && (r.session.step task).isSome
  { r with ready := r.ready ++ woken }

/-- A connection that has just been started. -/
def start (session : Session) : Schedule where
  session
  ready := [.outbox, .writer]

/-- Something happens in the surroundings. -/
def act (r : Schedule) (change : Session → Session) : Schedule :=
  { r with session := change r.session }.wake none

/-- Gives the task its turn, for at most so many steps. -/
def giveTurn (task : Task) : Nat → Schedule → Schedule
  | 0, r => r
  | steps + 1, r =>
      match r.session.step task with
      | none => r
      | some session => giveTurn task steps ({ r with session }.wake (some task))

/-- A bound on the steps that can be taken before something happens outside. -/
def stepsLeft (r : Schedule) : Nat :=
  let s := r.session
  64 + 16 * (s.transport.inbound.size + s.outbox.queue.length + s.outbox.cancels.items.length +
    s.outbox.slot.items.length + s.teardown.calls.length)

/-- Lets the tasks run until all of them have to wait. -/
def settle (r : Schedule) : Schedule :=
  go r.stepsLeft r
where
  /-- At most so many turns. -/
  go : Nat → Schedule → Schedule
    | 0, r => r
    | turns + 1, r =>
        match r.ready with
        | [] => r
        | task :: ready => go turns (giveTurn task r.stepsLeft { r with ready })

/-- The owner calls for the end; the call runs at once as far as it can. -/
def shutdown (r : Schedule) : Schedule :=
  r.act fun s =>
    let call := s.teardown.nextCall
    let s := s.shutdown
    { s with teardown := s.teardown.settleCall call s.now }

/-- The deadlines at which some task goes on. -/
def deadlines (s : Session) : List Nat :=
  let writer :=
    match s.writer with
    | .dialing deadline | .greeting deadline _ | .idle deadline => some deadline
    | .writing _ deadline | .closing deadline => deadline
    | .tearingDown call _ => s.teardown.deadline? call
    | _ => none
  let reader :=
    match s.reader with
    | .reading deadline | .handling _ deadline => deadline
    | .tearingDown call => s.teardown.deadline? call
    | _ => none
  writer.toList ++ reader.toList ++ s.ownerCalls.filterMap s.teardown.deadline?

/-- The first deadline that is still to come. -/
def nextDeadline? (s : Session) : Option Nat :=
  ((deadlines s).filter (· > s.now)).min?

/-- Lets time pass. -/
def advance (r : Schedule) (duration : Nat) : Schedule :=
  go (r.session.now + duration) (duration + 1) r.settle
where
  /-- Up to the moment `goal`, past at most so many deadlines. -/
  go (goal : Nat) : Nat → Schedule → Schedule
    | 0, r => r
    | stops + 1, r =>
        match nextDeadline? r.session with
        | some deadline =>
            if deadline ≤ goal then
              go goal stops (r.act fun s => { s with now := deadline }).settle
            else r.act fun s => { s with now := goal }
        | none => r.act fun s => { s with now := goal }

end Schedule

end PeerWire

import PeerWire.Client
import PeerWire.Proofs.Session.Flow

/-!
Histories of a connection together with the scheduler that serves it. Between them nobody
else has a part: what we hold, and the mailboxes that the two share, change by their steps
alone. `Move` sorts what can happen. Seen from the connection, a step of the scheduler is
something that others do to it; so whatever is known of the histories of a connection holds
of it here.
-/

namespace PeerWire.Client

/-- What can happen to the two: a task of theirs takes a step, or something happens around
them. -/
inductive Event where
  | task (task : ClientTask)
  | around (event : Session.Event)

/-- Whether an event happens around the two: time, the wire, the owner, and those who
listen to exit reports. -/
def isAround : Session.Event → Bool
  | .wait _ | .remoteSends _ | .remoteSendsBytes _ | .remoteEnds | .dialReturns _ | .openGate _
  | .failWrites _ | .takeExits _ | .closeExits | .shutdown | .abandonCall _ => true
  | _ => false

/-- What an event leads to. A task that has to wait changes nothing. -/
def after (c : Client) : Event → Client
  | .task task => (c.step task).getD c
  | .around event => if isAround event then c.act (·.after event) else c

/-- The two after a history of events, oldest first. -/
def run (c : Client) (history : List Event) : Client :=
  history.foldl after c

/-- What is kept along a history, event by event, from `kept` on. -/
def trace {α : Type} (keep : α → Client → Event → α) (kept : α) (c : Client) : List Event → α
  | [] => kept
  | event :: history => trace keep (keep kept c event) (c.after event) history

/-- A connection and a scheduler that have not taken a step, on any wire. -/
def fresh (settings : Settings) (identity : Identity) (addr : String) (field : Bitfield)
    (capacities : Session.Capacities) (transport : Transport) (blockSize : UInt32) : Client where
  session := .start settings identity addr field.pieces field capacities transport
  scheduler := { blockSize }

section Histories

variable {α : Type} (c : Client) (past : List Event) (event : Event)

@[simp] theorem run_nil : c.run [] = c := rfl

@[simp] theorem run_concat : c.run (past ++ [event]) = (c.run past).after event := by
  simp [run]

@[simp] theorem trace_concat (keep : α → Client → Event → α) (kept : α) :
    trace keep kept c (past ++ [event]) = keep (trace keep kept c past) (c.run past) event := by
  induction past generalizing kept c with
  | nil => rfl
  | cons first rest ih =>
      have later : c.run (first :: rest) = (c.after first).run rest := rfl
      simp only [List.cons_append, trace, ih, later]

end Histories

/-! ### What can happen -/

/-- The scheduler tries to put its answer with a piece into the outbox. -/
def posted (c : Client) (piece : UInt32) : Receipt × Session :=
  c.session.post .scheduler (.answer (c.scheduler.requestFor piece))

/-- Whatever happens to the two is one of these. -/
inductive Move (c : Client) : Event → Client → Prop where
  | session (task : Task) :
      Move c (.task (.session task)) { c with session := c.session.after (.task task) }
  | around {event : Session.Event} (outside : isAround event = true) :
      Move c (.around event) { c with session := c.session.after event }
  /-- The scheduler has to wait, or the event is not for these two. -/
  | rests {event : Event} (others : ∀ task, event ≠ .task (.session task)) : Move c event c
  | passedOver {inbox : Inbox} {request : PieceRequest} {later : List PieceRequest}
      (next : c.session.requests.items = request :: later)
      (nothing : c.scheduler.choose? c.session.field request.remote = none) :
      Move c (.task (.scheduler inbox))
        { c with session := (c.session.takeRequests 1).2.dropResponder }
  | assigned {inbox : Inbox} {request : PieceRequest} {later : List PieceRequest} {piece : UInt32}
      (idle : c.answering = none) (next : c.session.requests.items = request :: later)
      (chosen : c.scheduler.choose? c.session.field request.remote = some piece) :
      Move c (.task (.scheduler inbox)) {
        session := (c.session.takeRequests 1).2
        scheduler := c.scheduler.reserve piece
        answering := some piece }
  | took {inbox : Inbox} {delivery : Delivery} {later : List Delivery}
      (next : c.session.teardown.deliveries.items = delivery :: later) :
      Move c (.task (.scheduler inbox)) { c with
        session := (c.session.takeDeliveries 1).2.setField
          (c.scheduler.onDelivery c.session.field delivery).2
        scheduler := (c.scheduler.onDelivery c.session.field delivery).1 }
  | answered {inbox : Inbox} {piece : UInt32} (answering : c.answering = some piece)
      (room : (c.posted piece).1 = .accepted) :
      Move c (.task (.scheduler inbox))
        { c with session := (c.posted piece).2.dropResponder, answering := none }
  /-- The outbox is gone, and nobody is going to ask for the piece. -/
  | withdrawn {inbox : Inbox} {piece : UInt32} (answering : c.answering = some piece)
      (gone : (c.posted piece).1 = .closed) :
      Move c (.task (.scheduler inbox)) {
        session := (c.posted piece).2.dropResponder
        scheduler := c.scheduler.release piece
        answering := none }
  /-- The answer has come to wait for room. -/
  | queued {inbox : Inbox} {piece : UInt32} (answering : c.answering = some piece)
      (full : (c.posted piece).1 = .full) :
      Move c (.task (.scheduler inbox)) { c with session := (c.posted piece).2 }

section Moves

variable (c : Client) (inbox : Inbox)

theorem move_answer {piece : UInt32} (answering : c.answering = some piece) :
    Move c (.task (.scheduler inbox)) ((c.answer piece).getD c) := by
  have receipt : ∃ receipt, (c.posted piece).1 = receipt := ⟨_, rfl⟩
  unfold posted at receipt
  obtain ⟨receipt, became⟩ := receipt
  unfold answer
  dsimp only
  rw [became]
  cases receipt with
  | accepted => exact .answered answering became
  | closed => exact .withdrawn answering became
  | full =>
      dsimp only
      split
      · exact .rests nofun
      · exact .queued answering became

theorem move_takeRequest (idle : c.answering = none) :
    Move c (.task (.scheduler inbox)) (c.takeRequest.getD c) := by
  cases next : c.session.requests.items with
  | nil =>
      have waits : c.takeRequest = none := by
        simp [takeRequest, Session.takeRequests, Mailbox.take, next]
      rw [waits]
      exact .rests nofun
  | cons request later =>
      cases chosen : c.scheduler.choose? c.session.field request.remote with
      | none =>
          have passed : c.takeRequest =
              some { c with session := (c.session.takeRequests 1).2.dropResponder } := by
            simp [takeRequest, Session.takeRequests, Mailbox.take, Scheduler.assign?, next, chosen]
          rw [passed]
          exact .passedOver next chosen
      | some piece =>
          have assigned : c.takeRequest = some {
              session := (c.session.takeRequests 1).2
              scheduler := c.scheduler.reserve piece
              answering := some piece } := by
            simp [takeRequest, Session.takeRequests, Mailbox.take, Scheduler.assign?, next, chosen]
          rw [assigned]
          exact .assigned idle next chosen

theorem move_takeDelivery : Move c (.task (.scheduler inbox)) (c.takeDelivery.getD c) := by
  cases next : c.session.teardown.deliveries.items with
  | nil =>
      have waits : c.takeDelivery = none := by
        simp [takeDelivery, Session.takeDeliveries, Mailbox.take, next]
      rw [waits]
      exact .rests nofun
  | cons delivery later =>
      have took : c.takeDelivery = some { c with
          session := (c.session.takeDeliveries 1).2.setField
            (c.scheduler.onDelivery c.session.field delivery).2
          scheduler := (c.scheduler.onDelivery c.session.field delivery).1 } := by
        simp [takeDelivery, Session.takeDeliveries, Mailbox.take, next]
      rw [took]
      exact .took next

theorem after_session (task : Task) :
    c.after (.task (.session task)) = { c with session := c.session.after (.task task) } := by
  simp only [after, step, Session.after]
  cases c.session.step task <;> rfl

theorem after_move (event : Event) : Move c event (c.after event) := by
  cases event with
  | task task =>
      cases task with
      | session task =>
          rw [after_session]
          exact .session task
      | scheduler inbox =>
          cases answering : c.answering with
          | some piece =>
              simpa only [after, step, stepScheduler, answering] using
                c.move_answer inbox answering
          | none =>
              cases inbox with
              | requests =>
                  simpa only [after, step, stepScheduler, answering] using
                    c.move_takeRequest .requests answering
              | deliveries =>
                  simpa only [after, step, stepScheduler, answering] using
                    c.move_takeDelivery .deliveries
  | around event =>
      simp only [after]
      split
      · exact .around ‹_›
      · exact .rests nofun

end Moves

/-! ### Seen from the connection -/

/-- To the connection, whatever happens is a history of events of its own. -/
theorem Move.events {c c' : Client} {event : Event} (move : Move c event c') :
    ∃ events, c'.session = c.session.run events := by
  cases move with
  | session task => exact ⟨[.task task], rfl⟩
  | @around event outside => exact ⟨[event], rfl⟩
  | rests others => exact ⟨[], rfl⟩
  | passedOver next nothing => exact ⟨[.takeRequests 1, .dropResponder], rfl⟩
  | assigned idle next chosen => exact ⟨[.takeRequests 1], rfl⟩
  | @took inbox delivery later next =>
      let field := (c.scheduler.onDelivery c.session.field delivery).2
      exact ⟨[.takeDeliveries 1, .setField field], rfl⟩
  | @answered inbox piece answering room =>
      exact ⟨[.post .scheduler (.answer (c.scheduler.requestFor piece)), .dropResponder], rfl⟩
  | @withdrawn inbox piece answering gone =>
      exact ⟨[.post .scheduler (.answer (c.scheduler.requestFor piece)), .dropResponder], rfl⟩
  | @queued inbox piece answering full =>
      exact ⟨[.post .scheduler (.answer (c.scheduler.requestFor piece))], rfl⟩

/-- Once the connection is ending, it stays so. -/
theorem Move.isEnding {c c' : Client} {event : Event} (move : Move c event c')
    (ending : c.session.IsEnding) : c'.session.IsEnding := by
  obtain ⟨events, same⟩ := move.events
  rw [same]
  exact ending.run events

variable {c : Client}

/-- A history of the two is to the connection a history of its own. -/
theorem exists_events (c : Client) (history : List Event) :
    ∃ events, (c.run history).session = c.session.run events := by
  induction history using List.reverseRecOn with
  | nil => exact ⟨[], rfl⟩
  | append_singleton past event ih =>
      obtain ⟨sofar, same⟩ := ih
      obtain ⟨events, next⟩ := ((c.run past).after_move event).events
      exact ⟨sofar ++ events, by rw [run_concat, next, same, Session.run_append]⟩

theorem lifecycle_run (life : c.session.Lifecycle) (history : List Event) :
    (c.run history).session.Lifecycle := by
  obtain ⟨events, same⟩ := c.exists_events history
  rw [same]
  exact life.run events

theorem flowing_run (life : c.session.Lifecycle) (flow : c.session.Flowing)
    (history : List Event) : (c.run history).session.Flowing := by
  obtain ⟨events, same⟩ := c.exists_events history
  rw [same]
  exact flow.run life events

end PeerWire.Client

import PeerWire.Proofs.Session.ReaderTurns
import PeerWire.Proofs.Session.Standstill

/-!
A wire that takes nothing holds nobody up but the writer. However long a write is in progress
and however full the slot in front of the writer is, the write queue takes in what arrives: what
is pending has no bound. So nobody waits for long to put something into the queue, neither the
reader nor whoever answers a piece request.

This needs a line in which everybody still wants what they wait for. `Outbox.Orderly` says who
may stand in line for room in the queue: each party once, the reader only while it has its
interest to announce, and otherwise nobody who belongs to the connection.
-/

namespace PeerWire

/-- The reader has its interest to announce. -/
def ReaderPhase.isAnnouncing : ReaderPhase → Bool
  | .handling (.announce _ _) _ => true
  | _ => false

namespace Outbox

/-- Who waits in line for room, and that a queue that has stopped holds nothing. -/
structure Orderly (box : Outbox) (room : Nat) (announcing : Bool) : Prop where
  capacity : box.incoming.capacity = room
  once : box.incoming.line.Nodup
  waiting : ∀ party ∈ box.incoming.line,
    party.isOutside = true ∨ party = .reader ∧ announcing = true
  incoming : box.incoming.Sealed
  cancels : box.cancels.Sealed
  shut : box.hasStopped = true → box.incoming.isOpen = false ∧ box.cancels.isOpen = false

namespace Orderly

variable {box after : Outbox} {room : Nat} {announcing tornDown : Bool}

theorem settled (orderly : box.Orderly room announcing)
    (gone : .reader ∉ box.incoming.line) (later : Bool) : box.Orderly room later where
  capacity := orderly.capacity
  once := orderly.once
  waiting party waits :=
    .inl ((orderly.waiting party waits).resolve_right fun reader => gone (reader.1 ▸ waits))
  incoming := orderly.incoming
  cancels := orderly.cancels
  shut := orderly.shut

/-- Where the reader has nothing to announce it does not wait. -/
theorem quiet (orderly : box.Orderly room false) (later : Bool) : box.Orderly room later :=
  orderly.settled (fun waits => (orderly.waiting .reader waits).elim nofun nofun) later

theorem stop (orderly : box.Orderly room announcing) : box.stop.Orderly room announcing where
  capacity := orderly.capacity
  once := orderly.once
  waiting := orderly.waiting
  incoming := box.incoming.sealed_close
  cancels := box.cancels.sealed_close
  shut _ := ⟨rfl, rfl⟩

theorem move (orderly : box.Orderly room announcing) (running : box.hasStopped = false)
    (move : OutboxMove box tornDown after) : after.Orderly room announcing := by
  have taken (most : Nat) : (box.incoming.take most).2.Sealed := orderly.incoming.take most
  have named : (box.cancels.take 1).2.Sealed := orderly.cancels.take 1
  have unstopped {p : Prop} : box.hasStopped = true → p := by simp [running]
  cases move with
  | tear => exact orderly.stop
  | strand => exact orderly.stop
  | retract torn front =>
      unfold Outbox.retract absorb
      split
      · exact ⟨orderly.capacity, orderly.once, orderly.waiting, taken _, named, unstopped⟩
      · exact ⟨orderly.capacity, orderly.once, orderly.waiting, orderly.incoming, named,
          unstopped⟩
  | takeIn =>
      exact ⟨orderly.capacity, orderly.once, orderly.waiting, taken 1, orderly.cancels, unstopped⟩
  | deafen => exact { orderly with }
  | handOver => exact { orderly with }

theorem turn (orderly : box.Orderly room announcing) (turn : box.turn tornDown = some after) :
    after.Orderly room announcing := by
  obtain ⟨running, moved, move, rfl | ⟨rfl, -⟩⟩ := outboxMove_of_turn turn
  · exact orderly.move running move
  · exact (orderly.move running move).stop

/-- Those outside come and go. -/
theorem approached (orderly : box.Orderly room announcing) {incoming : Mailbox Message}
    (approached : box.incoming.Approached incoming) :
    ({ box with incoming } : Outbox).Orderly room announcing := by
  obtain ⟨visitor, outside, visited⟩ := approached.visited
  refine ⟨visited.capacity.trans orderly.capacity, approached.nodup orderly.once, ?_,
    approached.sealed orderly.incoming, orderly.cancels, ?_⟩
  · intro party waits
    rcases visited.line party waits with rfl | before
    · exact .inl outside
    · exact orderly.waiting party before
  · intro stopped
    exact ⟨approached.isOpen.trans (orderly.shut stopped).1, (orderly.shut stopped).2⟩

/-! ### The reader -/

theorem sent (orderly : box.Orderly room announcing) (message : Message) :
    ({ box with incoming := (box.incoming.send .reader message).2 } : Outbox).Orderly room
      true := by
  have visited := Mailbox.Visited.send box.incoming .reader message
  refine ⟨visited.capacity.trans orderly.capacity, Mailbox.nodup_send _ _ _ orderly.once, ?_,
    orderly.incoming.put (some .reader) message, orderly.cancels, ?_⟩
  · intro party waits
    rcases visited.line party waits with rfl | before
    · exact .inr ⟨rfl, rfl⟩
    · exact (orderly.waiting party before).imp_right fun reader => ⟨reader.1, rfl⟩
  · intro stopped
    rw [Mailbox.isOpen_send]
    exact orderly.shut stopped

theorem cancelled (orderly : box.Orderly room announcing) (ref : BlockRef) :
    ({ box with cancels := (box.cancels.send .reader ref).2 } : Outbox).Orderly room
      announcing where
  capacity := orderly.capacity
  once := orderly.once
  waiting := orderly.waiting
  incoming := orderly.incoming
  cancels := orderly.cancels.put (some .reader) ref
  shut stopped := by
    rw [Mailbox.isOpen_send]
    exact orderly.shut stopped

/-- The reader leaves both lines, or one. -/
theorem left (orderly : box.Orderly room announcing) (cancels : Mailbox BlockRef)
    (items : cancels.items = box.cancels.items) (isOpen : cancels.isOpen = box.cancels.isOpen)
    (later : Bool) :
    ({ box with incoming := box.incoming.leave .reader, cancels } : Outbox).Orderly room later := by
  have still : ({ box with incoming := box.incoming.leave .reader, cancels } : Outbox).Orderly room
      announcing := by
    refine ⟨orderly.capacity, orderly.once.erase _,
      fun party waits => orderly.waiting party (List.mem_of_mem_erase waits), orderly.incoming,
      ?_, ?_⟩
    · intro closed
      exact items.trans (orderly.cancels (isOpen ▸ closed))
    · intro stopped
      exact ⟨(orderly.shut stopped).1, isOpen.trans (orderly.shut stopped).2⟩
  exact still.settled orderly.once.not_mem_erase later

end Orderly

end Outbox

namespace Session

variable {s s' : Session} {event : Event}

/-- The line for room in the write queue is in order. -/
def Orderly (s : Session) : Prop :=
  s.outbox.Orderly s.settings.outboundCapacity s.reader.isAnnouncing

namespace Orderly

theorem start (settings : Settings) (identity : Identity) (addr : String) (pieces : UInt64)
    (field : Bitfield) (capacities : Capacities) (transport : Transport) :
    (Session.start settings identity addr pieces field capacities transport).Orderly where
  capacity := rfl
  once := .nil
  waiting := nofun
  incoming _ := rfl
  cancels _ := rfl
  shut := nofun

/-- The reader goes on with nothing to wait for in the line, or not yet. -/
theorem proceed {u : Session} {room : Nat} (quiet : u.outbox.Orderly room false)
    (settings : u.settings.outboundCapacity = room) (handled : Conversation × Progress) :
    (u.proceed handled).Orderly := by
  obtain ⟨conversation, progress⟩ := handled
  subst settings
  cases progress with
  | done outcome => cases outcome <;> exact quiet
  | handing errand => exact quiet.quiet _

theorem afterRead {u : Session} {room : Nat} (quiet : u.outbox.Orderly room false)
    (settings : u.settings.outboundCapacity = room) (outcome : ReadOutcome) :
    (u.afterRead outcome).Orderly := by
  cases outcome with
  | message message =>
      rw [afterRead_message]
      exact proceed quiet settings _
  | _ =>
      subst settings
      exact quiet

/-- A reader that tries to hand something over has left the line unless it found no room. -/
theorem attempt (orderly : s.Orderly) {errand : Errand} {deadline : Option Nat}
    (phase : s.reader = .handling errand deadline) :
    (s.attempt errand).2.Orderly ∧ ((s.attempt errand).1 ≠ .full →
      (s.attempt errand).2.outbox.Orderly s.settings.outboundCapacity false) := by
  unfold Session.Orderly at orderly ⊢
  rw [attempt_reader]
  rw [phase] at orderly ⊢
  cases errand with
  | announce interested thenRequest =>
      have sent := Outbox.Orderly.sent orderly (.ofInterest interested)
      exact ⟨sent, fun settled => sent.settled (Mailbox.not_mem_line_send orderly.once settled) _⟩
  | cancel ref => exact ⟨orderly.cancelled ref, fun _ => orderly.cancelled ref⟩
  | deliver block => exact ⟨orderly, fun _ => orderly⟩
  | request remote => exact ⟨orderly, fun _ => orderly⟩

theorem leaveLine (orderly : s.Orderly) {errand : Errand} {deadline : Option Nat}
    (phase : s.reader = .handling errand deadline) :
    (s.leaveLine errand).outbox.Orderly s.settings.outboundCapacity false := by
  unfold Session.Orderly at orderly
  rw [phase] at orderly
  cases errand with
  | announce interested thenRequest => exact orderly.left _ rfl rfl false
  | _ => exact { orderly with }

theorem stopReader (orderly : s.Orderly) : s.stopReader.Orderly :=
  Outbox.Orderly.left orderly (s.outbox.cancels.leave .reader) rfl rfl false

theorem readerMove (orderly : s.Orderly) (move : ReaderMove s s') : s'.Orderly := by
  have reading {deadline : Option Nat} (phase : s.reader = .reading deadline) :
      s.outbox.Orderly s.settings.outboundCapacity false := by
    unfold Session.Orderly at orderly
    rwa [phase] at orderly
  cases move with
  | cut => exact orderly.stopReader
  | released => exact orderly.stopReader
  | @read deadline outcome inbound phase =>
      refine afterRead ?_ rfl outcome
      exact reading phase
  | starved phase => exact afterRead (reading phase) rfl _
  | @handed errand deadline phase alive receipt =>
      exact proceed ((orderly.attempt phase).2 (by simp [receipt])) (by cases errand <;> rfl) _
  | @turnedAway errand deadline phase alive receipt =>
      exact proceed ((orderly.attempt phase).2 (by simp [receipt])) (by cases errand <;> rfl) _
  | @expired errand deadline phase alive receipt due =>
      have joined := (orderly.attempt phase).1
      exact proceed (joined.leaveLine ((attempt_reader s errand).trans phase))
        (by cases errand <;> rfl) _
  | queued phase => exact (orderly.attempt phase).1
  | calling => exact orderly

theorem writerMove (orderly : s.Orderly) (life : s.Lifecycle) (move : WriterMove s s') :
    s'.Orderly := by
  have slotted (slot : Mailbox Message) : ({ s.outbox with slot } : Outbox).Orderly
      s.settings.outboundCapacity s.reader.isAnnouncing := { (orderly : Outbox.Orderly _ _ _) with }
  cases move with
  | @announced bits deadline phase unbroken =>
      have absent : s.reader = .absent := life.unread (by rw [phase]; rfl)
      unfold Session.Orderly at orderly
      rw [absent] at orderly
      exact orderly
  | cut => exact slotted _
  | crash => exact slotted _
  | relay => exact slotted _
  | @released call up =>
      cases up with
      | true => exact orderly
      | false => exact slotted _
  | joined => exact slotted _
  | _ => exact orderly

end Orderly

/-- Of those outside, nobody but who sends into the write queue has to do with its line. -/
theorem approached_after (s : Session) (event : Event) (surroundings : event.isTask = false) :
    s.outbox.incoming.Approached (s.after event).outbox.incoming := by
  cases event with
  | task task => contradiction
  | respond message => exact .offered message
  | post party parcel =>
      simp only [after]
      split
      · rename_i outside
        cases parcel with
        | answer message => exact .sent outside message
        | request request =>
            simp only [post]
            split <;> exact .unmoved
        | _ => exact .unmoved
      · exact .unmoved
  | giveUp party =>
      simp only [after]
      split
      · exact .left ‹_›
      · exact .unmoved
  | remoteSends item =>
      simp only [after, remoteSends]
      split <;> exact .unmoved
  | remoteSendsBytes bytes =>
      simp only [after, remoteSendsBytes]
      split <;> exact .unmoved
  | abandonCall number =>
      simp only [after, abandonCall]
      split <;> exact .unmoved
  | dropResponder =>
      simp only [after, dropResponder]
      split <;> exact .unmoved
  | _ => exact .unmoved

theorem Orderly.after (orderly : s.Orderly) (life : s.Lifecycle) (event : Event) :
    (s.after event).Orderly := by
  have move := after_move s event
  have approached := s.approached_after event
  generalize s.after event = s' at move approached ⊢
  cases move with
  | wait => exact orderly
  | outbox turn =>
      have senders : ({ s.outbox with hasSenders := s.hasSenders } : Outbox).Orderly
          s.settings.outboundCapacity s.reader.isAnnouncing :=
        { (orderly : Outbox.Orderly _ _ _) with }
      exact senders.turn turn
  | writer move => exact orderly.writerMove life move
  | reader move => exact orderly.readerMove move
  | call => exact orderly
  | shutdown => exact orderly
  | abandon => exact orderly
  | outside surroundings frame silent =>
      unfold Orderly
      rw [frame.outbox, frame.settings, frame.reader]
      exact Outbox.Orderly.approached orderly (approached surroundings)

theorem Orderly.run (orderly : s.Orderly) (life : s.Lifecycle) (history : List Event) :
    (s.run history).Orderly := by
  induction history using List.reverseRecOn with
  | nil => exact orderly
  | append_singleton past event ih =>
      rw [run_concat]
      exact ih.after (life.run past) event

/-! ### The write queue goes on -/

/-- The write queue takes in what has arrived, wherever the writer is. -/
theorem takesIn (flow : s.Flowing) (orderly : s.Orderly) (alive : s.teardown.hasFired = false)
    (arrived : 0 < s.outbox.backlog) :
    ∃ s', s.step .outbox = some s' ∧ s'.outbox.backlog < s.outbox.backlog := by
  have running : s.outbox.hasStopped = false := by
    by_contra stopped
    obtain ⟨incoming, cancels⟩ := orderly.shut (by simpa using stopped)
    simp [Outbox.backlog, orderly.incoming incoming, orderly.cancels cancels] at arrived
  obtain ⟨box, turn, less⟩ := Outbox.turn_of_backlog
    { s.outbox with hasSenders := s.hasSenders } running (flow.isListening alive) arrived
  refine ⟨{ s with outbox := box }, ?_, less⟩
  simp only [step, stepOutbox, alive, turn, Option.map_some]

/-! ### A standstill -/

/-- Nothing can move without time passing or something new from outside: no task can take a
step, and nobody outside who waits in line for room in the write queue would be let in, or
turned away. -/
structure IsStill (s : Session) : Prop where
  tasks : ∀ task, s.step task = none
  senders : ∀ party ∈ s.outbox.incoming.line, party.isOutside = true →
    ∀ message, (s.post party (.answer message)).1 = .full

/-- A reader that has to wait with something to hand over has found no room for it. -/
theorem full_of_stuck {errand : Errand} {deadline : Option Nat}
    (alive : s.teardown.hasFired = false) (phase : s.reader = .handling errand deadline)
    (stuck : s.step .reader = none) : (s.attempt errand).1 = .full := by
  simp only [step, stepReader, phase, stepHandling, alive] at stuck
  split at stuck
  · contradiction
  · split at stuck
    · contradiction
    · contradiction
    · simp [*]

namespace IsStill

theorem of_uncalled (outbox : s.step .outbox = none) (writer : s.step .writer = none)
    (reader : s.step .reader = none) (uncalled : s.ownerCalls = [])
    (unheld : s.outbox.incoming.line = []) : s.IsStill where
  tasks task := by
    cases task with
    | outbox => exact outbox
    | writer => exact writer
    | reader => exact reader
    | call number => simp [step, uncalled]
  senders party waits := by simp [unheld] at waits

theorem backlog_eq (still : s.IsStill) (flow : s.Flowing) (orderly : s.Orderly)
    (alive : s.teardown.hasFired = false) : s.outbox.backlog = 0 := by
  by_contra arrived
  obtain ⟨s', step, -⟩ := takesIn flow orderly alive (Nat.pos_of_ne_zero arrived)
  exact nomatch (still.tasks .outbox).symm.trans step

/-- Where nothing has arrived, whoever is first in line would not wait. -/
theorem line_eq (still : s.IsStill) (orderly : s.Orderly) (alive : s.teardown.hasFired = false)
    (roomy : 0 < s.settings.outboundCapacity) (empty : s.outbox.incoming.items = []) :
    s.outbox.incoming.line = [] := by
  cases waiting : s.outbox.incoming.line with
  | nil => rfl
  | cons first rest =>
      have inLine : first ∈ s.outbox.incoming.line := waiting ▸ List.mem_cons_self
      have head : s.outbox.incoming.line.idxOf first = 0 := by rw [waiting, List.idxOf_cons_self]
      have free (message : Message) : (s.outbox.incoming.send first message).1 ≠ .full :=
        Mailbox.send_ne_full _ _ _ empty head (orderly.capacity ▸ roomy)
      rcases orderly.waiting first inLine with outside | ⟨rfl, announcing⟩
      · exact absurd (still.senders first inLine outside .keepAlive) (free .keepAlive)
      · unfold ReaderPhase.isAnnouncing at announcing
        split at announcing
        · rename_i interested thenRequest deadline phase
          exact absurd (full_of_stuck alive phase (still.tasks .reader)) (free _)
        · contradiction

end IsStill

/-- A stalled wire blocks nobody but the writer. Until a call for the end is made, and however
long a write takes, the write queue takes in whatever has arrived, one step after the other. So
when nothing can move any more, nothing is left in its two inputs, nobody waits in line to send
into it, and what the reader may have to hand over is for the scheduler and not for the
queue. -/
theorem stalled_wire_blocks_nobody (settings : Settings) (identity : Identity) (addr : String)
    (pieces : UInt64) (field : Bitfield) (capacities : Capacities) (transport : Transport)
    (history : List Event) (roomy : 0 < settings.outboundCapacity)
    (alive : ((Session.start settings identity addr pieces field capacities transport).run
      history).teardown.hasFired = false) :
    let s := (Session.start settings identity addr pieces field capacities transport).run history
    (0 < s.outbox.backlog →
        ∃ s', s.step .outbox = some s' ∧ s'.outbox.backlog < s.outbox.backlog) ∧
      (s.IsStill → s.outbox.incoming.items = [] ∧ s.outbox.cancels.items = [] ∧
        s.outbox.incoming.line = [] ∧
        ∀ errand deadline, s.reader = .handling errand deadline → errand.isTimed = true) := by
  intro s
  let first := Session.start settings identity addr pieces field capacities transport
  have life : first.Lifecycle := .start settings identity addr pieces field capacities transport
  have flow : s.Flowing :=
    (Flowing.start settings identity addr pieces field capacities transport).run life history
  have own : s.Uncontested :=
    (Uncontested.start settings identity addr pieces field capacities transport).run history
  have orderly : s.Orderly :=
    (Orderly.start settings identity addr pieces field capacities transport).run life history
  refine ⟨takesIn flow orderly alive, ?_⟩
  intro still
  have none := still.backlog_eq flow orderly alive
  unfold Outbox.backlog at none
  have incoming : s.outbox.incoming.items = [] := List.eq_nil_of_length_eq_zero (by omega)
  have cancels : s.outbox.cancels.items = [] := List.eq_nil_of_length_eq_zero (by omega)
  have room : 0 < s.settings.outboundCapacity := by
    rw [(settings_run first history).1]
    exact roomy
  have line := still.line_eq orderly alive room incoming
  refine ⟨incoming, cancels, line, ?_⟩
  intro errand deadline phase
  have full := full_of_stuck alive phase (still.tasks .reader)
  cases errand with
  | deliver block => rfl
  | request remote => rfl
  | cancel ref =>
      exact absurd full (Mailbox.send_ne_full _ _ _ cancels own.idxOf_reader own.capacity)
  | announce interested thenRequest =>
      have head : s.outbox.incoming.line.idxOf .reader = 0 := by rw [line]; rfl
      exact absurd full (Mailbox.send_ne_full _ _ _ incoming head (orderly.capacity ▸ room))

/-- A write is stuck, the slot is taken, and an answer arrives all the same. -/
theorem stalled_wire_blocks_nobody_answering :
    let s := Session.start .default default "10.0.0.7:6881" 2 (.empty 2) ⟨1, 4, 4⟩
      (.adopt default)
    let history : List Event := [.task .writer, .task .writer, .openGate false,
      .respond .choke, .task .outbox, .task .outbox, .task .writer,
      .respond .unchoke, .task .outbox, .task .outbox,
      .post .scheduler (.answer (.havePiece 1)), .task .outbox]
    (s.run history).writer = .writing (.relay .choke) none ∧
      (s.run history).outbox.slot.items = [.unchoke] ∧
      (s.run history).outbox.pending = [.havePiece 1] ∧ (s.run history).IsStill ∧
      (s.run history).outbox.incoming.line = [] := by
  intro s history
  have still : (s.run history).IsStill := by
    refine .of_uncalled ?_ ?_ ?_ (by decide) (by decide) <;>
      exact Option.isNone_iff_eq_none.mp (by decide)
  obtain ⟨-, settled⟩ := stalled_wire_blocks_nobody .default default "10.0.0.7:6881" 2 (.empty 2)
    ⟨1, 4, 4⟩ (.adopt default) history (by decide) (by decide)
  obtain ⟨-, -, line, -⟩ := settled still
  refine ⟨by decide, by decide, by decide, still, ?_⟩
  with_reducible exact line

end Session

end PeerWire

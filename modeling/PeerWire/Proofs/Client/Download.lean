import PeerWire.Proofs.Client
import PeerWire.Proofs.Client.Pursuit
import PeerWire.Proofs.Session.WriteOrder

/-!
A download does not stall. Whatever the order in which the tasks of a connection and its
scheduler take their steps, and whatever the remote says, as long as it answers what it is
asked for: once nothing is on its way any more and the remote lets us ask, we hold every
piece that the remote holds.

`Session.pursuit` reads off a connection what the pursuit of pieces depends on, and
`Session.Fetching` says that the pursuit can go on. Most of what happens does not touch it;
the steps of the reader and of the scheduler are matched with what keeps it going.
-/

namespace PeerWire

/-- The piece that a message asks for. -/
def Message.asked? : Message → Option UInt32
  | .request ref => some ref.piece
  | _ => none

/-- The piece of which a message brings a block. -/
def Message.brings? (message : Message) : Option UInt32 :=
  message.block?.map (·.piece)

/-- The errand that is being handed over. -/
def ReaderPhase.errand? : ReaderPhase → Option Errand
  | .handling errand _ => some errand
  | _ => none

namespace Session

/-! ### Requests on their way -/

/-- The messages that are on their way to the wire. -/
def onItsWay (s : Session) : List Message :=
  s.outbox.queue ++ s.outbox.slot.items ++ s.inFlight

/-- The pieces that the requests on their way ask for. -/
def asking (s : Session) : List UInt32 :=
  s.onItsWay.filterMap Message.asked?

section OnItsWay

variable {s s' : Session} {event : Event} {message : Message}

theorem mem_onItsWay : message ∈ s.onItsWay ↔
    message ∈ s.outbox.queue ∨ message ∈ s.outbox.slot.items ∨ message ∈ s.inFlight := by
  rw [onItsWay, List.mem_append, List.mem_append, or_assoc]

/-- What is on its way stays so where the queue only grows. -/
theorem onItsWay_of_grown
    (outbox : s'.outbox = { s.outbox with
      incoming := s'.outbox.incoming
      cancels := s'.outbox.cancels })
    (entered : s.outbox.incoming.items <+: s'.outbox.incoming.items) (writer : s'.writer = s.writer)
    (here : message ∈ s.onItsWay) : message ∈ s'.onItsWay := by
  rw [mem_onItsWay] at here ⊢
  have pending : s'.outbox.pending = s.outbox.pending := by rw [outbox]
  have slot : s'.outbox.slot = s.outbox.slot := by rw [outbox]
  unfold Outbox.queue inFlight at here ⊢
  rw [pending, slot, writer]
  refine here.imp_left ?_
  intro queued
  rcases List.mem_append.mp queued with before | arrived
  · exact List.mem_append_left _ before
  · exact List.mem_append_right _ (entered.subset arrived)

/-- The task of the write queue passes messages on. -/
theorem onItsWay_outbox {box : Outbox} (listening : s.outbox.isListening = true)
    (turn : ({ s.outbox with hasSenders := s.hasSenders } : Outbox).turn s.teardown.hasFired =
      some box) (running : box.hasStopped = false)
    (unnamed : ∀ ref, ¬ Outbox.isRetractedBy ref message) (here : message ∈ s.onItsWay) :
    message ∈ ({ s with outbox := box } : Session).onItsWay := by
  rw [mem_onItsWay, ← or_assoc] at here ⊢
  obtain ⟨_, moved, move, settled⟩ := Outbox.outboxMove_of_turn turn
  have same : box = moved := by
    rcases settled with same | ⟨rfl, _⟩
    · exact same
    · contradiction
  subst same
  exact here.imp_left (move.keeps running listening unnamed)

/-- What the writer was to write it has written, when it goes on. -/
theorem onItsWay_of_wrote {job : WriteJob} {deadline : Option Nat}
    (phase : s.writer = .writing job deadline) (outbox : s'.outbox = s.outbox)
    (written : s'.transport.outbound.written = s.transport.outbound.written ++ [job.message])
    (here : message ∈ s.onItsWay) : message ∈ s'.onItsWay ∨ message ∈ s.writes s' := by
  rw [mem_onItsWay] at here ⊢
  rw [outbox]
  rcases here with queued | ready | now
  · exact .inl (.inl queued)
  · exact .inl (.inr (.inl ready))
  · right
    rw [writes, written, List.drop_left]
    simpa [inFlight, phase] using now

/-- A writer that has nothing to write does not get in the way. -/
theorem onItsWay_of_unoccupied (unoccupied : s.writer.job? = none) (outbox : s'.outbox = s.outbox)
    (here : message ∈ s.onItsWay) : message ∈ s'.onItsWay ∨ message ∈ s.writes s' := by
  left
  rw [mem_onItsWay] at here ⊢
  rw [outbox]
  rcases here with queued | ready | now
  · exact .inl queued
  · exact .inr (.inl ready)
  · simp [inFlight, unoccupied] at now

/-- The writer takes a message from the slot, and writes it before the next one. -/
theorem WriterMove.onItsWay (move : WriterMove s s') (life : s.Lifecycle)
    (going : ¬ s'.IsEnding) (here : message ∈ s.onItsWay) :
    message ∈ s'.onItsWay ∨ message ∈ s.writes s' := by
  have alive := alive_of_going fun ending => going ((Move.writer move).isEnding ending)
  have still : s.writer.isEnding = false := by
    by_contra ending
    rw [life.writer (by simpa using ending)] at alive
    contradiction
  cases move with
  | cut phase fired | close phase fired =>
      rw [alive] at fired
      contradiction
  | released phase | calling phase | closed phase | joined phase =>
      rw [phase] at still
      contradiction
  | abort => exact absurd (.inl (Teardown.hasFired_trigger _ _ _)) going
  | failed => exact absurd (.inl (Teardown.hasFired_trigger _ _ _)) going
  | dryUp => exact absurd (.inl (Teardown.hasFired_trigger _ _ _)) going
  | crash => exact absurd (.inr rfl) going
  | announced phase unbroken => exact onItsWay_of_wrote phase rfl rfl here
  | wrote phase further unbroken => exact onItsWay_of_wrote phase rfl rfl here
  | @relay keepAliveAt front later phase unfired items =>
      left
      rw [mem_onItsWay] at here ⊢
      rcases here with queued | ready | now
      · exact .inl queued
      · rw [items] at ready
        rcases List.mem_cons.mp ready with rfl | behind
        · exact .inr (.inr List.mem_cons_self)
        · right
          left
          have rest : (s.outbox.slot.take 1).2.items = later := by simp [items]
          exact rest ▸ behind
      · simp [inFlight, phase, WriterPhase.job?] at now
  | dial phase | connected phase | greeted phase | adopt phase | welcome phase | keepAlive phase =>
      exact onItsWay_of_unoccupied (by rw [phase]; rfl) rfl here

/-- Whatever happens, a message that nothing retracts stays on its way until it is written,
unless the connection is ending. -/
theorem Move.onItsWay (move : Move s event s') (life : s.Lifecycle) (flow : s.Flowing)
    (going : ¬ s'.IsEnding) (unnamed : ∀ ref, ¬ Outbox.isRetractedBy ref message)
    (here : message ∈ s.onItsWay) : message ∈ s'.onItsWay ∨ message ∈ s.writes s' := by
  have alive := alive_of_going fun ending => going (move.isEnding ending)
  have running : s'.outbox.hasStopped = false := (flow.move life move).isRunning going
  cases move with
  | outbox turn => exact .inl (onItsWay_outbox (flow.isListening alive) turn running unnamed here)
  | writer move => exact move.onItsWay life going here
  | reader move =>
      have frame := move.frame
      exact .inl (onItsWay_of_grown frame.outbox frame.entered frame.writer here)
  | outside surroundings frame silent =>
      refine .inl (onItsWay_of_grown ?_ frame.entered frame.writer here)
      rw [frame.outbox]
  | _ => exact .inl here

theorem Move.asking (move : Move s event s') (life : s.Lifecycle) (flow : s.Flowing)
    (going : ¬ s'.IsEnding) {piece : UInt32} (asking : piece ∈ s.asking) :
    piece ∈ s'.asking ∨ piece ∈ (s.writes s').filterMap Message.asked? := by
  obtain ⟨message, here, asks⟩ := List.mem_filterMap.mp asking
  have unnamed : ∀ ref, ¬ Outbox.isRetractedBy ref message := by
    intro ref
    cases message with
    | piece block => contradiction
    | _ => exact Bool.false_ne_true
  rcases move.onItsWay life flow going unnamed here with still | written
  · exact .inl (List.mem_filterMap.mpr ⟨message, still, asks⟩)
  · exact .inr (List.mem_filterMap.mpr ⟨message, written, asks⟩)

end OnItsWay

/-! ### The pursuit in a connection -/

/-- What the pursuit of pieces depends on, next to the scheduler and what is asked for. -/
def pursuit (s : Session) (scheduler : Scheduler) (asked : List UInt32) : Pursuit where
  standing := s.conversation.standing
  field := s.field
  errand? := s.reader.errand?
  tokens := s.requests.items
  returned := s.teardown.deliveries.items
  scheduler
  asked

/-- The pursuit of pieces can go on. -/
structure Fetching (s : Session) (scheduler : Scheduler) (asked : List UInt32) : Prop where
  pieces : s.conversation.pieces = s.field.pieces
  sound : (s.pursuit scheduler asked).Sound

/-- Nothing that the pursuit depends on has changed. -/
structure Aside (s s' : Session) : Prop where
  pieces : s'.conversation.pieces = s.conversation.pieces := by rfl
  standing : s'.conversation.standing = s.conversation.standing := by rfl
  field : s'.field = s.field := by rfl
  errand : s'.reader.errand? = s.reader.errand? := by rfl
  requests : s'.requests.items = s.requests.items := by rfl
  deliveries : s'.teardown.deliveries.items = s.teardown.deliveries.items := by rfl

/-- The hand-over to the scheduler that the reader gives up with its next step, since there
was no room in time. -/
def expiring? (s : Session) : Option Errand :=
  match s.reader with
  | .handling errand deadline =>
      if errand.isTimed ∧ s.teardown.hasFired = false ∧ (s.attempt errand).1 = .full ∧
          s.isDue deadline = true then some errand
      else none
  | _ => none

section Steps

variable {s s' : Session} {scheduler : Scheduler} {asked asked' : List UInt32}

/-- Where nothing is heard, nothing is answered. -/
theorem kept_of_silent {heard : List Message} (silent : heard = [])
    (kept : ∀ piece ∈ asked, piece ∈ asked' ∨ piece ∈ heard.filterMap Message.brings?) :
    ∀ piece ∈ asked, piece ∈ asked' := by
  intro piece asking
  have found := kept piece asking
  rw [silent] at found
  exact found.resolve_right nofun

theorem Fetching.aside (fetching : s.Fetching scheduler asked) (aside : Aside s s')
    (kept : ∀ piece ∈ asked, piece ∈ asked') : s'.Fetching scheduler asked' where
  pieces := by rw [aside.pieces, aside.field, fetching.pieces]
  sound := by
    have same : s'.pursuit scheduler asked' =
        { s.pursuit scheduler asked with asked := asked' } := by
      simp only [pursuit, aside.standing, aside.field, aside.errand, aside.requests,
        aside.deliveries]
    rw [same]
    exact fetching.sound.carry kept

theorem aside_failWriter (reason : Ending) (up : Bool) : Aside s (s.failWriter reason up) :=
  { deliveries := congrArg Mailbox.items (Teardown.deliveries_trigger _ _ _) }

theorem WriterMove.aside (move : WriterMove s s') (life : s.Lifecycle)
    (alive : s.teardown.hasFired = false) : Aside s s' := by
  cases move with
  | announced phase unbroken =>
      have absent := life.unread (by rw [phase]; rfl)
      exact { errand := by rw [absent]; rfl }
  | calling phase move =>
      rw [move.hasFired life.oneShot] at alive
      contradiction
  | @released call up => cases up <;> exact {}
  | abort => exact aside_failWriter _ false
  | failed => exact aside_failWriter _ true
  | dryUp => exact aside_failWriter _ true
  | _ => exact {}

theorem aside_of_around {event : Event} (around : Client.isAround event = true) :
    Aside s (s.after event) := by
  cases event with
  | remoteSends item =>
      simp only [after, remoteSends]
      split <;> exact {}
  | remoteSendsBytes bytes =>
      simp only [after, remoteSendsBytes]
      split <;> exact {}
  | shutdown =>
      exact { deliveries := congrArg Mailbox.items (Teardown.deliveries_trigger _ _ _) }
  | abandonCall number =>
      simp only [after, abandonCall, Teardown.abandon]
      split
      · split <;> exact {}
      · exact {}
  | wait | remoteEnds | dialReturns | openGate | failWrites | takeExits | closeExits =>
      exact {}
  | _ => contradiction

/-! ### The reader's part -/

theorem pursuit_proceed (u : Session) (stand : Conversation × Progress) :
    (u.proceed stand).pursuit scheduler asked =
      { u.pursuit scheduler asked with
        standing := stand.1.standing
        errand? := stand.2.errand? } := by
  obtain ⟨conversation, progress⟩ := stand
  cases progress with
  | done outcome =>
      cases outcome with
      | ok => rfl
      | error failure =>
          have deliveries := congrArg Mailbox.items (Teardown.deliveries_trigger u.teardown
            (.protocol failure.message) u.now)
          simp only [pursuit, proceed, publish, failReader, trigger]
          rw [deliveries]
          rfl
  | handing errand => rfl

/-- The reader takes up a message. -/
theorem Fetching.hear {message : Message} (fetching : s.Fetching scheduler asked)
    (idle : s.reader.errand? = none)
    (going : (s.proceed (s.conversation.receive s.field s.now message)).teardown.hasFired = false)
    (kept : ∀ piece ∈ asked, piece ∈ asked' ∨ message.brings? = some piece) :
    (s.proceed (s.conversation.receive s.field s.now message)).Fetching scheduler asked' := by
  have sound := fetching.sound
  have sized : s.conversation.Sized := sound.same.trans fetching.pieces.symm
  have canonical : s.field.Canonical := sound.field
  have opening := s.conversation.opening_receive s.field sound.remote sized s.now message
  generalize s.conversation.receive s.field s.now message = stand at opening going
  obtain ⟨conversation, field⟩ := conversation_proceed s stand
  have still : message.block? = none → ∀ piece ∈ asked, piece ∈ asked' := by
    intro brings piece asking
    refine (kept piece asking).resolve_right ?_
    simp [Message.brings?, brings]
  cases opening with
  | fails fault =>
      rw [proceed] at going
      exact absurd ((hasFired_failReader _ _).symm.trans going) nofun
  | @delivers block brings =>
      refine ⟨by rw [conversation, field, fetching.pieces], ?_⟩
      rw [pursuit_proceed]
      refine sound.answer idle ?_
      intro piece asking
      refine (kept piece asking).imp_right ?_
      intro answered
      simpa [Message.brings?, brings, eq_comm] using answered
  | passes brings pieces remote interest choking quiet =>
      refine ⟨by rw [conversation, field, pieces, fetching.pieces], ?_⟩
      rw [pursuit_proceed]
      exact sound.listen idle remote interest choking quiet (still brings)
  | @reviews c' brings pieces fit sized =>
      have same : c'.standing.remote.pieces = s.field.pieces :=
        sized.trans (pieces.trans fetching.pieces)
      obtain ⟨considered, honest, remote, whole⟩ :=
        Conversation.considered_reviewInterest canonical fit same
      refine ⟨?_, ?_⟩
      · rw [conversation, field, whole, pieces, fetching.pieces]
      · rw [pursuit_proceed]
        exact sound.review idle (remote ▸ fit) (remote ▸ same) honest considered (still brings)

/-- The reader has handed something over. -/
theorem Fetching.handed {errand : Errand} (fetching : s.Fetching scheduler asked)
    (handing : s.reader.errand? = some errand) (receipt : (s.attempt errand).1 = .accepted)
    (kept : ∀ piece ∈ asked, piece ∈ asked') :
    ((s.attempt errand).2.resume errand .accepted).Fetching scheduler asked' := by
  have sound := fetching.sound
  refine ⟨?_, ?_⟩
  · obtain ⟨conversation, field⟩ := conversation_proceed (s.attempt errand).2
      ((s.attempt errand).2.conversation.resume (s.attempt errand).2.field errand .accepted)
    obtain ⟨amInterested, resumed⟩ := (s.attempt errand).2.conversation.resume_fst
      (s.attempt errand).2.field errand .accepted
    have held : (s.attempt errand).2.field = s.field := by cases errand <;> rfl
    rw [resume, conversation, field, resumed, attempt_conversation, held]
    exact fetching.pieces
  · rw [resume, pursuit_proceed]
    cases errand with
    | cancel ref => exact sound.cancel handing kept
    | deliver block =>
        have entered : (s.attempt (.deliver block)).2.teardown.deliveries.items =
            s.teardown.deliveries.items ++ [.block s.conversation.addr block] :=
          Mailbox.items_send_of_accepted receipt
        obtain ⟨considered, honest, remote, -⟩ := Conversation.considered_reviewInterest
          (c := s.conversation) sound.field sound.remote sound.same
        have delivered := sound.deliver s.conversation.addr handing remote honest
          considered kept
        rw [pursuit, entered]
        exact delivered
    | announce interested thenRequest =>
        obtain rfl := sound.announcing _ _ handing
        exact sound.announce handing
          (Conversation.considered_afterInterest sound.field sound.same sound.honest) kept
    | request remote =>
        have entered : (s.attempt (.request remote)).2.requests.items =
            s.requests.items ++ [s.conversation.pieceRequest remote] :=
          Mailbox.items_send_of_accepted receipt
        have requested := sound.request (s.conversation.pieceRequest remote) handing kept
        rw [pursuit, entered]
        exact requested

theorem hasFired_turnedAway (u : Session) (errand : Errand) :
    (u.resume errand .closed).teardown.hasFired = true := by
  cases errand <;> exact hasFired_failReader _ _

/-- A reader that has found no room waits in line for it, and nothing else changes. -/
theorem aside_of_full {errand : Errand} (full : (s.attempt errand).1 = .full) :
    Aside s (s.attempt errand).2 := by
  cases errand with
  | deliver block => exact { deliveries := Mailbox.items_send_of_full full }
  | request remote => exact { requests := Mailbox.items_send_of_full full }
  | _ => exact {}

/-- A step of the reader. -/
theorem Fetching.reader (fetching : s.Fetching scheduler asked) (move : ReaderMove s s')
    (life : s.Lifecycle) (going : s'.teardown.hasFired = false) (patient : s.expiring? = none)
    (kept : ∀ piece ∈ asked, piece ∈ asked' ∨
      piece ∈ (s.heard (.task .reader)).filterMap Message.brings?) :
    s'.Fetching scheduler asked' := by
  have handling : ∀ {errand : Errand} {deadline : Option Nat},
      s.reader = .handling errand deadline → ∀ piece ∈ asked, piece ∈ asked' :=
    fun phase => kept_of_silent (heard_of_handling phase) kept
  cases move with
  | cut phase fired => exact absurd (fired.symm.trans going) nofun
  | released phase ended =>
      have fired := life.reader (by rw [phase]; rfl)
      exact absurd (fired.symm.trans going) nofun
  | calling phase move =>
      have fired := move.hasFired life.oneShot
      exact absurd (fired.symm.trans (move.hasFired_eq.symm.trans going)) nofun
  | starved phase alive due =>
      exact absurd ((hasFired_failReader _ _).symm.trans going) nofun
  | @read deadline outcome inbound phase alive polled =>
      cases outcome with
      | message message =>
          rw [afterRead_message] at going ⊢
          have polling : ({ s with transport := { s.transport with inbound } } : Session).Fetching
              scheduler asked := ⟨fetching.pieces, fetching.sound⟩
          refine polling.hear (by rw [phase]; rfl) going ?_
          intro piece asking
          refine (kept piece asking).imp_right ?_
          intro brought
          simpa [heard, phase, alive, polled] using brought
      | _ => exact absurd ((hasFired_failReader _ _).symm.trans going) nofun
  | handed phase alive receipt =>
      exact fetching.handed (by rw [phase]; rfl) receipt (handling phase)
  | turnedAway phase alive receipt =>
      exact absurd ((hasFired_turnedAway _ _).symm.trans going) nofun
  | @expired errand deadline phase alive receipt due =>
      have untimed : errand.isTimed = false := by
        by_contra timed
        simp [expiring?, phase, timed, alive, receipt, due] at patient
      have waiting := fetching.aside (aside_of_full receipt) (handling phase)
      cases errand with
      | deliver | request => contradiction
      | cancel | announce =>
          refine waiting.aside { errand := ?_ } fun _ => id
          rw [attempt_reader, phase]
          rfl
  | queued phase alive receipt => exact fetching.aside (aside_of_full receipt) (handling phase)

/-- A step of a task of the connection. -/
theorem Fetching.task {task : Task} (fetching : s.Fetching scheduler asked)
    (move : Move s (.task task) s') (life : s.Lifecycle) (going : s'.teardown.hasFired = false)
    (patient : task = .reader → s.expiring? = none)
    (kept : ∀ piece ∈ asked, piece ∈ asked' ∨
      piece ∈ (s.heard (.task task)).filterMap Message.brings?) :
    s'.Fetching scheduler asked' := by
  have alive : s.teardown.hasFired = false := by
    by_contra fired
    exact absurd ((move.teardown_turn.later.fired (by simpa using fired)).symm.trans going) nofun
  cases move with
  | wait stuck =>
      exact fetching.aside {}
        (kept_of_silent (heard_of_waiting stuck) kept)
  | outbox turn => exact fetching.aside {} (kept_of_silent rfl kept)
  | writer move => exact fetching.aside (move.aside life alive) (kept_of_silent rfl kept)
  | reader move => exact fetching.reader move life going (patient rfl) kept
  | call made move =>
      rw [move.hasFired life.oneShot] at alive
      contradiction
  | outside surroundings => contradiction

theorem onItsWay_dropResponder (s : Session) : s.dropResponder.onItsWay = s.onItsWay := by
  unfold dropResponder
  split <;> rfl

theorem aside_dropResponder (s : Session) : Aside s s.dropResponder := by
  unfold dropResponder
  split <;> exact {}

end Steps

end Session

namespace Client

/-! ### What the remote is asked for -/

/-- The messages that the reader takes up at an event. -/
def heard (c : Client) : Event → List Message
  | .task (.session task) => c.session.heard (.task task)
  | _ => []

/-- What the remote has not answered after an event: every request that is written adds a
piece, and every block that is heard answers one request for its piece. -/
def followUp (unanswered : List UInt32) (c : Client) (event : Event) : List UInt32 :=
  (unanswered ++ (c.session.writes (c.after event).session).filterMap Message.asked?).diff
    ((c.heard event).filterMap Message.brings?)

/-- The pieces that the remote was asked for along a history, and has not answered. -/
def unanswered (c : Client) (history : List Event) : List UInt32 :=
  trace followUp [] c history

/-- The hand-over to the scheduler that times out at an event. -/
def expired (c : Client) : Event → List Errand
  | .task (.session .reader) => c.session.expiring?.toList
  | _ => []

/-- The hand-overs to the scheduler that time out along a history. -/
def expiries (c : Client) (history : List Event) : List Errand :=
  trace (fun earlier c event => earlier ++ c.expired event) [] c history

/-- The pieces that the remote is being asked for and has not sent, from their assignment
on. -/
def asked (c : Client) (unanswered : List UInt32) : List UInt32 :=
  c.answering.toList ++ c.session.asking ++ unanswered

section Asked

variable {c : Client} {event : Event} {unanswered : List UInt32} {piece : UInt32}

theorem mem_asked : piece ∈ c.asked unanswered ↔
    c.answering = some piece ∨ piece ∈ c.session.asking ∨ piece ∈ unanswered := by
  rw [asked, List.mem_append, List.mem_append, Option.mem_toList, or_assoc]

theorem onItsWay_posted {message : Message} (here : message ∈ c.session.onItsWay) :
    message ∈ (c.posted piece).2.onItsWay :=
  Session.onItsWay_of_grown rfl (Mailbox.prefix_send _ _ _) rfl here

/-- The answer of the scheduler is turned away only when the connection is ending. -/
theorem not_turned_away (flow : c.session.Flowing) (going : ¬ c.session.IsEnding) :
    (c.posted piece).1 ≠ .closed := by
  intro gone
  have shut := (Mailbox.send_eq_closed_iff c.session.outbox.incoming .scheduler
    (c.scheduler.requestFor piece)).mp gone
  rw [(flow.inputs (flow.isRunning going)).1] at shut
  contradiction

theorem Move.asking {c' : Client} (move : Move c event c') (life : c.session.Lifecycle)
    (flow : c.session.Flowing) (going : ¬ c'.session.IsEnding) (asking : piece ∈ c.session.asking) :
    piece ∈ c'.session.asking ∨
      piece ∈ (c.session.writes c'.session).filterMap Message.asked? := by
  obtain ⟨message, here, asks⟩ := List.mem_filterMap.mp asking
  have still : message ∈ c'.session.onItsWay → piece ∈ c'.session.asking := fun later =>
    List.mem_filterMap.mpr ⟨message, later, asks⟩
  cases move with
  | session task => exact (Session.after_move _ _).asking life flow going asking
  | around outside => exact (Session.after_move _ _).asking life flow going asking
  | passedOver next nothing =>
      refine .inl (still ?_)
      rw [Session.onItsWay_dropResponder]
      exact here
  | answered answering room =>
      refine .inl (still ?_)
      rw [Session.onItsWay_dropResponder]
      exact onItsWay_posted here
  | withdrawn answering gone =>
      refine .inl (still ?_)
      rw [Session.onItsWay_dropResponder]
      exact onItsWay_posted here
  | queued answering full => exact .inl (still (onItsWay_posted here))
  | _ => exact .inl asking

/-- An answer of the scheduler stays with it until it is on its way. -/
theorem Move.answering {c' : Client} (move : Move c event c') (flow : c.session.Flowing)
    (going : ¬ c.session.IsEnding) (answering : c.answering = some piece) :
    c'.answering = some piece ∨ piece ∈ c'.session.asking := by
  cases move with
  | assigned idle => cases idle.symm.trans answering
  | @answered inbox other same room =>
      cases same.symm.trans answering
      right
      refine List.mem_filterMap.mpr ⟨c.scheduler.requestFor piece, ?_, rfl⟩
      have entered : (c.posted piece).2.outbox.incoming.items =
          c.session.outbox.incoming.items ++ [c.scheduler.requestFor piece] :=
        Mailbox.items_send_of_accepted room
      rw [Session.onItsWay_dropResponder, Session.mem_onItsWay, Outbox.queue, entered]
      exact .inl (List.mem_append_right _ (List.mem_append_right _ List.mem_cons_self))
  | @withdrawn inbox other same gone => exact absurd gone (not_turned_away flow going)
  | _ => exact .inl answering

/-- Nothing that is asked for is forgotten before its answer is heard. -/
theorem asked_after (life : c.session.Lifecycle) (flow : c.session.Flowing)
    (going : ¬ (c.after event).session.IsEnding) (asking : piece ∈ c.asked unanswered) :
    piece ∈ (c.after event).asked (followUp unanswered c event) ∨
      piece ∈ (c.heard event).filterMap Message.brings? := by
  have move := c.after_move event
  have filed : piece ∈ unanswered ++
        (c.session.writes (c.after event).session).filterMap Message.asked? →
      piece ∈ (c.after event).asked (followUp unanswered c event) ∨
        piece ∈ (c.heard event).filterMap Message.brings? := by
    intro written
    by_cases answered : piece ∈ (c.heard event).filterMap Message.brings?
    · exact .inr answered
    · exact .inl (mem_asked.mpr (.inr (.inr (List.mem_diff_of_mem written answered))))
  rcases mem_asked.mp asking with answering | underway | before
  · have earlier : ¬ c.session.IsEnding := fun ending => going (move.isEnding ending)
    rcases move.answering flow earlier answering with still | later
    · exact .inl (mem_asked.mpr (.inl still))
    · exact .inl (mem_asked.mpr (.inr (.inl later)))
  · rcases move.asking life flow going underway with later | written
    · exact .inl (mem_asked.mpr (.inr (.inl later)))
    · exact filed (List.mem_append_right _ written)
  · exact filed (List.mem_append_left _ before)

end Asked

/-! ### The pursuit along a history -/

/-- The pursuit goes on, whatever happens. -/
theorem Move.fetching {c c' : Client} {event : Event} {asked asked' : List UInt32}
    (move : Move c event c') (fetching : c.session.Fetching c.scheduler asked)
    (life : c.session.Lifecycle) (flow : c.session.Flowing) (going : ¬ c'.session.IsEnding)
    (patient : c.expired event = [])
    (kept : ∀ piece ∈ asked, piece ∈ asked' ∨
      piece ∈ (c.heard event).filterMap Message.brings?)
    (answering : ∀ piece, c'.answering = some piece → piece ∈ asked') :
    c'.session.Fetching c'.scheduler asked' := by
  have earlier : ¬ c.session.IsEnding := fun ending => going (move.isEnding ending)
  have unheard : c.heard event = [] → ∀ piece ∈ asked, piece ∈ asked' :=
    fun silent => Session.kept_of_silent silent kept
  cases move with
  | session task =>
      refine fetching.task (Session.after_move _ _) life (Session.alive_of_going going) ?_ kept
      rintro rfl
      simpa [expired] using patient
  | around outside => exact fetching.aside (Session.aside_of_around outside) (unheard rfl)
  | rests others =>
      refine fetching.aside {} (unheard ?_)
      unfold heard
      split
      · exact absurd rfl (others _)
      · rfl
  | @passedOver inbox request later next nothing =>
      have passed : (c.session.takeRequests 1).2.Fetching c.scheduler asked := by
        refine ⟨fetching.pieces, ?_⟩
        have sound := fetching.sound.passOver next nothing
        simpa [Session.pursuit, Session.takeRequests, next] using sound
      exact passed.aside (Session.aside_dropResponder _) (unheard rfl)
  | @assigned inbox request later piece idle next chosen =>
      have sound := fetching.sound.assign later (answering piece rfl) (unheard rfl)
      refine ⟨fetching.pieces, ?_⟩
      simpa [Session.pursuit, Session.takeRequests, next] using sound
  | @took inbox delivery later next =>
      have sound := fetching.sound.take next
      have taken : ((c.session.takeDeliveries 1).2.setField
          (c.scheduler.onDelivery c.session.field delivery).2).Fetching
            (c.scheduler.onDelivery c.session.field delivery).1 asked := by
        refine ⟨?_, ?_⟩
        · exact fetching.pieces.trans (fetching.sound.same.symm.trans sound.same)
        · simpa [Session.pursuit, Session.takeDeliveries, Session.setField, next] using sound
      exact taken.aside {} (unheard rfl)
  | @answered inbox piece same room =>
      have posted : (c.posted piece).2.Fetching c.scheduler asked :=
        fetching.aside {} fun _ => id
      exact posted.aside (Session.aside_dropResponder _) (unheard rfl)
  | withdrawn same gone => exact absurd gone (not_turned_away flow earlier)
  | queued same full => exact fetching.aside {} (unheard rfl)

theorem fetching_fresh (settings : Settings) (identity : Identity) (addr : String)
    {field : Bitfield} (canonical : field.Canonical) (few : field.size ≤ 2 ^ 32)
    (capacities : Session.Capacities) (transport : Transport) (blockSize : UInt32) :
    (fresh settings identity addr field capacities transport blockSize).session.Fetching
      { blockSize } [] := by
  have nothing : ∀ index,
      ¬ (Conversation.start addr field.pieces 0).standing.Offers field index := by
    rintro index ⟨theirs, -⟩
    have held : (Bitfield.empty field.pieces).has index = true := theirs
    rw [Bitfield.has_empty] at held
    contradiction
  refine ⟨rfl, ⟨canonical, Bitfield.canonical_empty _, rfl, few⟩, fun _ => nothing, nofun, nofun,
    nofun, nofun, .content nothing⟩

theorem fetching_run {c : Client} (life : c.session.Lifecycle) (flow : c.session.Flowing)
    (start : c.session.Fetching c.scheduler (c.asked [])) (history : List Event)
    (going : ¬ (c.run history).session.IsEnding) (patient : c.expiries history = []) :
    (c.run history).session.Fetching (c.run history).scheduler
      ((c.run history).asked (c.unanswered history)) := by
  induction history using List.reverseRecOn with
  | nil => exact start
  | append_singleton past event ih =>
      rw [expiries, trace_concat, List.append_eq_nil_iff] at patient
      rw [run_concat] at going ⊢
      have move := (c.run past).after_move event
      have earlier : ¬ (c.run past).session.IsEnding := fun ending => going (move.isEnding ending)
      rw [unanswered, trace_concat]
      exact move.fetching (ih earlier patient.1) (lifecycle_run life past)
        (flowing_run life flow past) going patient.2
        (fun piece asking => asked_after (lifecycle_run life past) (flowing_run life flow past)
          going asking)
        (fun piece answering => mem_asked.mpr (.inl answering))

/-! ### At rest -/

/-- Nothing is on its way between the remote, the connection and the scheduler: no task has
anything in hand, and nothing waits in any channel or queue. -/
structure AtRest (c : Client) : Prop where
  reader : ∃ deadline, c.session.reader = .reading deadline
  writer : ∃ keepAliveAt, c.session.writer = .idle keepAliveAt
  scheduler : c.answering = none
  requests : c.session.requests.items = []
  deliveries : c.session.teardown.deliveries.items = []
  queue : c.session.outbox.queue = []
  cancels : c.session.outbox.cancels.items = []
  slot : c.session.outbox.slot.items = []

/-- The connection is not torn down, and the remote lets us ask. -/
structure Willing (c : Client) : Prop where
  alive : c.session.teardown.hasFired = false
  unchoked : c.session.conversation.standing.peerChoking = false

/-- The remote holds the piece, and we lack it. -/
def Offered (c : Client) (index : Nat) : Prop :=
  c.session.conversation.standing.remote.has index = true ∧ c.session.field.has index = false

/-- A download does not stall with a willing remote. Whatever the wire and the room in the
mailboxes, whatever the order of the steps and whatever the remote says, if no hand-over to
the scheduler has timed out, then at rest, with every request answered, the remote holds
nothing that we lack. -/
theorem nothing_offered_at_rest (settings : Settings) (identity : Identity) (addr : String)
    (field : Bitfield) (canonical : field.Canonical) (few : field.size ≤ 2 ^ 32)
    (capacities : Session.Capacities) (transport : Transport) (blockSize : UInt32)
    (history : List Event) :
    let start := fresh settings identity addr field capacities transport blockSize
    let end_ := start.run history
    start.expiries history = [] → start.unanswered history = [] → end_.AtRest → end_.Willing →
      ∀ index, ¬ end_.Offered index := by
  intro start end_ patient answered rest willing index
  have life : start.session.Lifecycle := .start _ _ _ _ _ _ _
  have flow : start.session.Flowing := .start _ _ _ _ _ _ _
  obtain ⟨keepAliveAt, idle⟩ := rest.writer
  obtain ⟨deadline, reading⟩ := rest.reader
  have going : ¬ end_.session.IsEnding :=
    Session.not_isEnding willing.alive (by rw [idle]; exact nofun)
  have fetching := fetching_run life flow
    (fetching_fresh settings identity addr canonical few capacities transport blockSize) history
    going patient
  have asked : end_.asked (start.unanswered history) = [] := by
    simp [Client.asked, Session.asking, Session.onItsWay, Session.inFlight, rest.scheduler,
      rest.queue, rest.slot, idle, WriterPhase.job?, answered]
  have empty_handed : end_.session.reader.errand? = none := by rw [reading]; rfl
  exact fetching.sound.nothing_offered empty_handed rest.requests rest.deliveries asked
    willing.unchoked index

/-- The remote holds two pieces. The request that follows the first block is looked at
before the block is taken into account, and gets the second piece. -/
theorem nothing_offered_when_overtaken :
    let start :=
      fresh .default default "10.0.0.7:6881" (.empty 2) ⟨4, 16, 64⟩ (.adopt default) 16384
    let relayed : List Event :=
      [.task (.session .outbox), .task (.session .outbox), .task (.session .writer),
        .task (.session .writer)]
    let assigned : List Event :=
      [.task (.scheduler .requests), .task (.scheduler .requests)] ++ relayed
    let delivered (index : UInt32) : List Event :=
      [.around (.remoteSends (.ok (.piece ⟨index, 0, []⟩))), .task (.session .reader),
        .task (.session .reader), .task (.session .reader)]
    let history : List Event :=
      [.task (.session .writer), .task (.session .writer),
        .around (.remoteSends (.ok (.bitfield [192]))), .task (.session .reader),
        .task (.session .reader)] ++ relayed ++
      [.around (.remoteSends (.ok .unchoke)), .task (.session .reader), .task (.session .reader)] ++
      assigned ++ delivered 0 ++ assigned ++ [.task (.scheduler .deliveries)] ++ delivered 1 ++
      [.task (.scheduler .requests), .task (.scheduler .deliveries)]
    let end_ := start.run history
    start.expiries history = [] ∧ start.unanswered history = [] ∧ end_.AtRest ∧ end_.Willing ∧
      end_.session.field.has 0 = true ∧ end_.session.field.has 1 = true ∧
        ∀ index, ¬ end_.Offered index := by
  intro start relayed assigned delivered history end_
  have few : (Bitfield.empty 2).size ≤ 2 ^ 32 := by simp [Bitfield.size, Bitfield.empty]
  have patient : start.expiries history = [] := by decide
  have answered : start.unanswered history = [] := by decide
  have rest : end_.AtRest := by
    constructor
    · exact ⟨none, by decide⟩
    · exact ⟨120000, by decide⟩
    all_goals decide
  have willing : end_.Willing := by
    constructor
    · decide
    · decide
  exact ⟨patient, answered, rest, willing, by decide, by decide,
    nothing_offered_at_rest .default default "10.0.0.7:6881" (.empty 2) (Bitfield.canonical_empty 2)
      few ⟨4, 16, 64⟩ (.adopt default) 16384 history patient answered rest willing⟩

end Client

end PeerWire

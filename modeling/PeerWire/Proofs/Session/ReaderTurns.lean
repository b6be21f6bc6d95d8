import PeerWire.Proofs.Message.Chunking
import PeerWire.Proofs.Session.Flow

/-!
How long a reader goes on once its remote has ended the wire. What is left to read and to
hand over can be counted: `readerLoad` falls with every turn in which the reader reads on
or hands something over, and nothing else makes it grow. A reader that finds no room has
to wait, but not for its own connection: the write queue goes on.
-/

namespace PeerWire

/-! ### What is left to do -/

/-- The hand-overs that an errand can still come to, its own included. -/
def Errand.load : Errand → Nat
  | .deliver _ => 3
  | .announce _ _ => 2
  | .request _ | .cancel _ => 1

/-- The hand-overs that a handling can still come to. -/
def Progress.load : Progress → Nat
  | .done _ => 0
  | .handing errand => errand.load

theorem ReaderPhase.isAtWork_cases {phase : ReaderPhase} (atWork : phase.isAtWork = true) :
    (∃ deadline, phase = .reading deadline) ∨
      ∃ errand deadline, phase = .handling errand deadline := by
  cases phase with
  | reading deadline => exact .inl ⟨deadline, rfl⟩
  | handling errand deadline => exact .inr ⟨errand, deadline, rfl⟩
  | _ => contradiction

namespace Conversation

variable (c : Conversation) (field : Bitfield)

theorem load_afterInterest (thenRequest : Bool) : (c.afterInterest field thenRequest).load ≤ 1 := by
  unfold afterInterest considerRequest
  split_ifs <;> simp [Progress.load, Progress.ok, Errand.load]

theorem load_reviewInterest (thenRequest : Bool) :
    (c.reviewInterest field thenRequest).2.load ≤ 2 := by
  unfold reviewInterest
  dsimp only
  split
  · exact Nat.le_trans (c.load_afterInterest field thenRequest) (by decide)
  · exact Nat.le_refl 2

theorem load_receive (now : Nat) (message : Message) :
    (c.receive field now message).2.load ≤ 3 := by
  have reviewed (c : Conversation) : (c.reviewInterest field true).2.load ≤ 3 :=
    Nat.le_trans (c.load_reviewInterest field true) (by decide)
  cases message with
  | unchoke => exact reviewed _
  | havePiece index =>
      unfold receive
      dsimp only
      split
      · exact Nat.zero_le 3
      · exact reviewed _
  | bitfield bits =>
      unfold receive
      dsimp only
      split
      · exact Nat.zero_le 3
      · exact reviewed _
  | piece block => exact Nat.le_refl 3
  | cancel ref => exact Nat.le_of_ble_eq_true rfl
  | _ => exact Nat.zero_le 3

/-- What comes after a hand-over is less than the hand-over was, unless it is tried again. -/
theorem load_resume (errand : Errand) (result : HandOver) :
    (c.resume field errand result).2.load ≤ errand.load ∧
      (result ≠ .expired → (c.resume field errand result).2.load < errand.load) := by
  cases errand with
  | deliver block =>
      cases result with
      | accepted =>
          have reviewed := c.load_reviewInterest field true
          exact ⟨Nat.le_succ_of_le reviewed, fun _ => Nat.lt_succ_of_le reviewed⟩
      | closed => exact ⟨Nat.zero_le _, fun _ => Nat.succ_pos _⟩
      | expired => exact ⟨Nat.zero_le _, fun _ => Nat.succ_pos _⟩
  | announce interested thenRequest =>
      cases result with
      | accepted =>
          have settled := c.load_afterInterest field thenRequest
          exact ⟨Nat.le_succ_of_le settled, fun _ => Nat.lt_succ_of_le settled⟩
      | closed => exact ⟨Nat.zero_le _, fun _ => Nat.succ_pos _⟩
      | expired => exact ⟨Nat.le_refl _, absurd rfl⟩
  | request remote => cases result <;> exact ⟨Nat.zero_le _, fun _ => Nat.succ_pos _⟩
  | cancel ref =>
      cases result with
      | expired => exact ⟨Nat.le_refl _, absurd rfl⟩
      | _ => exact ⟨Nat.zero_le _, fun _ => Nat.succ_pos _⟩

end Conversation

namespace Session

/-- The turns that the reader can still come to where it waits. -/
def readerLoad (s : Session) : Nat :=
  4 * s.transport.inbound.waiting.length +
    match s.reader with
    | .reading _ => 1
    | .handling errand _ => 1 + errand.load
    | .absent | .tearingDown _ | .finished => 0

/-- The reader has something to hand over, and finds no room for it. -/
def awaitsRoom (s : Session) : Bool :=
  match s.reader with
  | .handling errand _ => (s.attempt errand).1 = .full
  | _ => false

/-- The turns in which the reader reads on, or hands something over. -/
def stride (s : Session) : Event → List Task
  | .task .reader => if s.reader.isAtWork && !s.awaitsRoom then [.reader] else []
  | _ => []

/-- The remote has ended a wire of bytes, and these are left. -/
def Holding (s : Session) (limit : Nat) (buffer : List UInt8) : Prop :=
  s.transport.inbound = .bytes limit buffer .ended

section Turns

variable {s s' : Session} {event : Event} {limit : Nat} {buffer : List UInt8}

/-- A read never has to wait, and what it leaves is no more than what was there. -/
theorem Holding.poll (holding : s.Holding limit buffer) : ∃ outcome rest,
    s.transport.inbound.poll = some (outcome, .bytes limit rest .ended) ∧
      rest.length ≤ buffer.length ∧
      ∀ message, outcome = .message message → rest.length < buffer.length := by
  unfold Holding at holding
  rw [holding]
  unfold Inbound.poll
  dsimp only
  split
  · rename_i message rest front
    have shorter := Stream.length_lt_of_next front
    exact ⟨_, _, rfl, Nat.le_of_lt shorter, fun _ _ => shorter⟩
  · exact ⟨_, _, rfl, Nat.le_refl _, nofun⟩
  · split <;> exact ⟨_, _, rfl, Nat.le_refl _, nofun⟩

theorem Holding.readerLoad_le (holding : s.Holding limit buffer) :
    s.readerLoad ≤ 4 * buffer.length + 4 := by
  unfold readerLoad
  rw [holding, Inbound.waiting]
  split
  · omega
  · rename_i errand deadline _
    have most : errand.load ≤ 3 := by cases errand <;> simp [Errand.load]
    omega
  · omega
  · omega
  · omega

theorem proceed_transport (u : Session) (stand : Conversation × Progress) :
    (u.proceed stand).transport = u.transport := by
  obtain ⟨conversation, progress⟩ := stand
  cases progress with
  | done outcome => cases outcome <;> rfl
  | handing errand => rfl

theorem leaveLine_transport (u : Session) (errand : Errand) :
    (u.leaveLine errand).transport = u.transport := by
  cases errand <;> rfl

theorem readerLoad_proceed (u : Session) (stand : Conversation × Progress) :
    (u.proceed stand).readerLoad ≤
      4 * u.transport.inbound.waiting.length + 1 + stand.2.load := by
  obtain ⟨conversation, progress⟩ := stand
  cases progress with
  | done outcome =>
      cases outcome with
      | ok => exact Nat.le_refl _
      | error failure => exact Nat.le_succ _
  | handing errand => exact Nat.le_of_eq (Nat.add_assoc _ _ _).symm

theorem readerLoad_reading {deadline : Option Nat} (phase : s.reader = .reading deadline) :
    s.readerLoad = 4 * s.transport.inbound.waiting.length + 1 := by
  simp [readerLoad, phase]

theorem readerLoad_handling {errand : Errand} {deadline : Option Nat}
    (phase : s.reader = .handling errand deadline) :
    s.readerLoad = 4 * s.transport.inbound.waiting.length + 1 + errand.load := by
  simp [readerLoad, phase, Nat.add_assoc]

theorem awaitsRoom_handling {errand : Errand} {deadline : Option Nat}
    (phase : s.reader = .handling errand deadline) :
    s.awaitsRoom = true ↔ (s.attempt errand).1 = .full := by
  simp [awaitsRoom, phase]

/-- What a resumed handling can still come to. -/
theorem readerLoad_resume {u : Session} {errand : Errand} {deadline : Option Nat}
    (phase : s.reader = .handling errand deadline) (transport : u.transport = s.transport)
    (result : HandOver) : (u.resume errand result).readerLoad ≤ s.readerLoad ∧
      (result ≠ .expired → (u.resume errand result).readerLoad < s.readerLoad) := by
  obtain ⟨most, less⟩ := u.conversation.load_resume u.field errand result
  have proceeded := readerLoad_proceed u (u.conversation.resume u.field errand result)
  rw [transport] at proceeded
  rw [readerLoad_handling phase, Session.resume]
  refine ⟨by omega, ?_⟩
  intro settled
  have further := less settled
  omega

/-- A turn of the reader leaves it less to do, unless it finds no room or has ended. -/
theorem ReaderMove.load (move : ReaderMove s s') (holding : s.Holding limit buffer) :
    (∃ rest, s'.Holding limit rest) ∧ s'.readerLoad ≤ s.readerLoad ∧
      (s.reader.isAtWork = true → s.awaitsRoom = false → s'.readerLoad < s.readerLoad) := by
  have held : ∀ u : Session, u.transport = s.transport → ∃ rest, u.Holding limit rest :=
    fun u same => ⟨buffer, by rw [Session.Holding, same]; exact holding⟩
  have stops : ∀ u : Session, u.transport = s.transport → u.reader.isAtWork = false →
      (∃ rest, u.Holding limit rest) ∧ u.readerLoad ≤ s.readerLoad ∧
        (s.reader.isAtWork = true → s.awaitsRoom = false → u.readerLoad < s.readerLoad) := by
    intro u transport idle
    refine ⟨held u transport, ?_⟩
    have bare : u.readerLoad = 4 * s.transport.inbound.waiting.length := by
      unfold readerLoad
      rw [transport]
      split <;> simp_all [ReaderPhase.isAtWork]
    refine ⟨by rw [bare]; exact Nat.le_add_right _ _, ?_⟩
    intro atWork _
    rw [bare]
    rcases ReaderPhase.isAtWork_cases atWork with ⟨deadline, phase⟩ | ⟨errand, deadline, phase⟩
    · rw [readerLoad_reading phase]
      omega
    · rw [readerLoad_handling phase]
      omega
  cases move with
  | cut phase fired => exact stops s.stopReader rfl rfl
  | released phase ended => exact stops s.stopReader rfl rfl
  | @calling call teardown phase move =>
      exact stops { s with teardown } rfl (by simp [phase, ReaderPhase.isAtWork])
  | starved phase alive due => exact stops (s.failReader _) rfl rfl
  | @read deadline outcome inbound phase alive polled =>
      obtain ⟨outcome', rest, found, most, less⟩ := holding.poll
      rw [found] at polled
      cases polled
      have full : s.transport.inbound.waiting = buffer := by rw [holding]; rfl
      have fewer : 4 * rest.length ≤ 4 * buffer.length := Nat.mul_le_mul_left 4 most
      rw [readerLoad_reading phase, full]
      cases outcome with
      | message message =>
          rw [afterRead_message]
          refine ⟨⟨rest, congrArg Transport.inbound (proceed_transport _ _)⟩, ?_⟩
          have shorter := less message rfl
          have further := s.conversation.load_receive s.field s.now message
          have proceeded := readerLoad_proceed
            ({ s with transport := { s.transport with inbound := .bytes limit rest .ended } } :
              Session) (s.conversation.receive s.field s.now message)
          dsimp only [Inbound.waiting] at proceeded ⊢
          omega
      | ended =>
          exact ⟨⟨rest, rfl⟩, Nat.le_succ_of_le fewer, fun _ _ => Nat.lt_succ_of_le fewer⟩
      | failed failure =>
          exact ⟨⟨rest, rfl⟩, Nat.le_succ_of_le fewer, fun _ _ => Nat.lt_succ_of_le fewer⟩
  | @handed errand deadline phase alive receipt =>
      have same : (s.attempt errand).2.transport = s.transport := attempt_transport s errand
      obtain ⟨most, less⟩ := readerLoad_resume phase same .accepted
      exact ⟨held _ ((proceed_transport _ _).trans same), most, fun _ _ => less (by simp)⟩
  | @turnedAway errand deadline phase alive receipt =>
      have same : (s.attempt errand).2.transport = s.transport := attempt_transport s errand
      obtain ⟨most, less⟩ := readerLoad_resume phase same .closed
      exact ⟨held _ ((proceed_transport _ _).trans same), most, fun _ _ => less (by simp)⟩
  | @expired errand deadline phase alive receipt due =>
      have same : ((s.attempt errand).2.leaveLine errand).transport = s.transport :=
        (leaveLine_transport _ errand).trans (attempt_transport s errand)
      refine ⟨held _ ((proceed_transport _ _).trans same),
        (readerLoad_resume phase same .expired).1, ?_⟩
      intro _ free
      rw [(awaitsRoom_handling phase).mpr receipt] at free
      contradiction
  | @queued errand deadline phase alive receipt =>
      have same : (s.attempt errand).2.transport = s.transport := attempt_transport s errand
      have still : (s.attempt errand).2.readerLoad = s.readerLoad := by
        simp [readerLoad]
      refine ⟨held _ same, Nat.le_of_eq still, ?_⟩
      intro _ free
      rw [(awaitsRoom_handling phase).mpr receipt] at free
      contradiction

/-- Where the reader does not lack room it can take its turn. -/
theorem Holding.step_reader (holding : s.Holding limit buffer)
    (atWork : s.reader.isAtWork = true) (free : s.awaitsRoom = false) : s.step .reader ≠ none := by
  rcases ReaderPhase.isAtWork_cases atWork with ⟨deadline, phase⟩ | ⟨errand, deadline, phase⟩
  · obtain ⟨outcome, rest, polled, _⟩ := holding.poll
    simp only [step, stepReader, phase, stepRead, polled]
    split <;> exact Option.some_ne_none _
  · have room : (s.attempt errand).1 ≠ .full := by
      rw [ne_eq, ← awaitsRoom_handling phase, free]
      exact Bool.false_ne_true
    simp only [step, stepReader, phase, stepHandling]
    split
    · exact Option.some_ne_none _
    · split <;> simp_all

/-- Once the reader was started, the writer has nothing to do with it any more. -/
theorem WriterMove.apart (move : WriterMove s s') (up : s.writer.isBeforeReader = false) :
    s'.reader = s.reader ∧ s'.conversation = s.conversation ∧ s'.status = s.status ∧
      s'.transport.inbound = s.transport.inbound := by
  cases move with
  | adopt phase =>
      rw [phase] at up
      contradiction
  | welcome phase =>
      rw [phase] at up
      contradiction
  | announced phase =>
      rw [phase] at up
      contradiction
  | @released call leaving => cases leaving <;> exact ⟨rfl, rfl, rfl, rfl⟩
  | _ => exact ⟨rfl, rfl, rfl, rfl⟩

/-! ### What arrives on the wire -/

/-- The bytes that arrive on the wire at an event. -/
def arrived (s : Session) : Event → List UInt8
  | .remoteSendsBytes bytes =>
      if (s.remoteSendsBytes bytes).1 = .accepted then bytes else []
  | .remoteSends (.ok message) =>
      if (s.remoteSends (.ok message)).1 = .accepted then Frame.encode message else []
  | _ => []

theorem remoteSends_cases (s : Session) (item : Except Failure Message) :
    (s.remoteSends item = (.accepted, { s with transport := { s.transport with
        inbound := s.transport.inbound.arrive item } }) ∧ s.transport.inbound.isOver = false) ∨
      s.remoteSends item = (.closed, s) := by
  unfold remoteSends
  split
  · rename_i heard
    exact .inl ⟨rfl, by simpa using (Bool.and_eq_true_iff.mp heard).2⟩
  · exact .inr rfl

theorem remoteSendsBytes_cases (s : Session) (bytes : List UInt8) :
    (s.remoteSendsBytes bytes = (.accepted, { s with transport := { s.transport with
        inbound := s.transport.inbound.arriveBytes bytes } }) ∧
          s.transport.inbound.isOver = false) ∨
      s.remoteSendsBytes bytes = (.closed, s) := by
  unfold remoteSendsBytes
  split
  · rename_i reached
    exact .inl ⟨rfl, by simpa using (Bool.and_eq_true_iff.mp reached).2⟩
  · exact .inr rfl

/-- Outside the tasks, bytes are added at the end of what waits, until the wire ends or
breaks. -/
theorem inbound_after {event : Event} {state : StreamState}
    (inbound : s.transport.inbound = .bytes limit buffer state)
    (surroundings : event.isTask = false) :
    ∃ state', (s.after event).transport.inbound = .bytes limit (buffer ++ s.arrived event) state' ∧
      (state ≠ .flowing → s.arrived event = [] ∧ state' = state) ∧
      ∀ failure, state' = .broken failure →
        state = .broken failure ∨ event = .remoteSends (.error failure) := by
  have quiet : ∀ (u : Session), u.transport.inbound = s.transport.inbound →
      ∀ bytes : List UInt8, bytes = [] → ∃ state',
        u.transport.inbound = .bytes limit (buffer ++ bytes) state' ∧
          (state ≠ .flowing → bytes = [] ∧ state' = state) ∧
          ∀ failure, state' = .broken failure →
            state = .broken failure ∨ event = .remoteSends (.error failure) := by
    rintro u same bytes rfl
    rw [List.append_nil]
    exact ⟨state, same.trans inbound, fun _ => ⟨rfl, rfl⟩, fun _ broken => .inl broken⟩
  have flowing : s.transport.inbound.isOver = false → state = .flowing := by
    intro running
    simpa [inbound, Inbound.isOver] using running
  cases event with
  | task task => contradiction
  | remoteSends item =>
      rcases s.remoteSends_cases item with ⟨sent, running⟩ | lost
      · obtain rfl := flowing running
        cases item with
        | ok message =>
            refine ⟨.flowing, ?_, fun halted => absurd rfl halted, by simp⟩
            simp [Session.after, arrived, sent, inbound, Inbound.arrive]
        | error failure =>
            refine ⟨.broken failure, ?_, fun halted => absurd rfl halted, ?_⟩
            · simp [Session.after, arrived, sent, inbound, Inbound.arrive]
            · rintro _ ⟨⟩
              exact .inr rfl
      · refine quiet _ (by rw [Session.after, lost]) _ ?_
        cases item <;> simp [arrived, lost]
  | remoteSendsBytes bytes =>
      rcases s.remoteSendsBytes_cases bytes with ⟨sent, running⟩ | lost
      · obtain rfl := flowing running
        refine ⟨.flowing, ?_, fun halted => absurd rfl halted, by simp⟩
        simp [Session.after, arrived, sent, inbound, Inbound.arriveBytes]
      · refine quiet _ (by rw [Session.after, lost]) _ ?_
        simp [arrived, lost]
  | remoteEnds =>
      have silent : s.arrived .remoteEnds = [] := rfl
      rw [silent, List.append_nil]
      simp only [Session.after, Session.remoteEnds, inbound]
      cases state with
      | flowing => exact ⟨.ended, rfl, fun halted => absurd rfl halted, by simp⟩
      | _ => exact ⟨_, rfl, fun _ => ⟨trivial, rfl⟩, fun _ broken => .inl broken⟩
  | post party parcel =>
      refine quiet _ ?_ _ rfl
      simp only [Session.after]
      split
      · cases parcel with
        | request request =>
            simp only [post]
            split <;> rfl
        | _ => rfl
      · rfl
  | giveUp party =>
      refine quiet _ ?_ _ rfl
      simp only [Session.after]
      split <;> rfl
  | abandonCall number =>
      refine quiet _ ?_ _ rfl
      simp only [Session.after, abandonCall]
      split <;> rfl
  | dropResponder =>
      refine quiet _ ?_ _ rfl
      simp only [Session.after, dropResponder]
      split <;> rfl
  | _ => exact quiet _ rfl _ rfl

/-- Nothing arrives on a wire that has ended. -/
theorem Holding.after (holding : s.Holding limit buffer) (surroundings : event.isTask = false) :
    (s.after event).Holding limit buffer := by
  obtain ⟨state', moved, kept, -⟩ := inbound_after holding surroundings
  obtain ⟨silent, rfl⟩ := kept (by simp)
  rw [silent, List.append_nil] at moved
  exact moved

/-! ### Towards the end -/

/-- Every stride takes from what the reader has to do, and nothing adds to it. -/
theorem Holding.load_after (holding : s.Holding limit buffer) (life : s.Lifecycle)
    (present : s.reader ≠ .absent) (event : Event) :
    (s.after event).reader ≠ .absent ∧ (∃ rest, (s.after event).Holding limit rest) ∧
      (s.stride event).length + (s.after event).readerLoad ≤ s.readerLoad := by
  have still : ∀ u : Session, u.transport.inbound = s.transport.inbound → u.reader = s.reader →
      s.stride event = [] → u.reader ≠ .absent ∧ (∃ rest, u.Holding limit rest) ∧
        (s.stride event).length + u.readerLoad ≤ s.readerLoad := by
    intro u inbound reader idle
    have same : u.readerLoad = s.readerLoad := by
      unfold readerLoad
      rw [inbound, reader]
    rw [idle, same]
    exact ⟨reader ▸ present, ⟨buffer, inbound.trans holding⟩, Nat.le_of_eq (Nat.zero_add _)⟩
  have arrives : event.isTask = false → (s.after event).Holding limit buffer := holding.after
  have move := after_move s event
  obtain ⟨s', moved⟩ : ∃ s', s.after event = s' := ⟨_, rfl⟩
  rw [moved] at move arrives ⊢
  cases move with
  | @wait task stuck =>
      refine still s rfl rfl ?_
      cases task with
      | reader =>
          unfold stride
          dsimp only
          split
          · rename_i free
            simp only [Bool.and_eq_true, Bool.not_eq_true'] at free
            exact absurd stuck (holding.step_reader free.1 free.2)
          · rfl
      | _ => rfl
  | outbox turn => exact still _ rfl rfl rfl
  | writer move =>
      obtain ⟨reader, _, _, inbound⟩ := move.apart (life.isBeforeReader_eq_false present)
      exact still s' inbound reader rfl
  | reader move =>
      obtain ⟨held, most, less⟩ := move.load holding
      refine ⟨move.started.2, held, ?_⟩
      unfold stride
      dsimp only
      split
      · rename_i free
        simp only [Bool.and_eq_true, Bool.not_eq_true'] at free
        have fewer := less free.1 free.2
        rw [List.length_singleton]
        omega
      · rw [List.length_nil]
        omega
  | call made move => exact still _ rfl rfl rfl
  | shutdown => exact still _ rfl rfl rfl
  | abandon made => exact still _ rfl rfl rfl
  | outside surroundings frame silent =>
      have idle : s.stride event = [] := by
        cases event with
        | task task => contradiction
        | _ => rfl
      exact still s' ((arrives surroundings).trans holding.symm) frame.reader idle

theorem Holding.load_run (holding : s.Holding limit buffer) (life : s.Lifecycle)
    (present : s.reader ≠ .absent) (history : List Event) :
    (s.run history).reader ≠ .absent ∧ (∃ rest, (s.run history).Holding limit rest) ∧
      (observe stride s history).length + (s.run history).readerLoad ≤ s.readerLoad := by
  induction history using List.reverseRecOn with
  | nil => exact ⟨present, ⟨buffer, holding⟩, Nat.le_of_eq (Nat.zero_add _)⟩
  | append_singleton past event ih =>
      obtain ⟨present, ⟨rest, held⟩, most⟩ := ih
      obtain ⟨present', held', more⟩ := held.load_after (life.run past) present event
      rw [run_concat, observe_concat, List.length_append]
      exact ⟨present', held', by omega⟩

/-- After four strides for each byte that was left, and four more, the connection is torn
down. -/
theorem Holding.hasFired_run (holding : s.Holding limit buffer) (life : s.Lifecycle)
    (present : s.reader ≠ .absent) {history : List Event}
    (long : 4 * buffer.length + 4 ≤ (observe stride s history).length) :
    (s.run history).teardown.hasFired = true := by
  obtain ⟨present', _, spent⟩ := holding.load_run life present history
  have most := holding.readerLoad_le
  have nothing : (s.run history).readerLoad = 0 := by omega
  refine (life.run history).reader ?_
  cases phase : (s.run history).reader with
  | absent => exact absurd phase present'
  | reading deadline =>
      rw [readerLoad_reading phase] at nothing
      omega
  | handling errand deadline =>
      rw [readerLoad_handling phase] at nothing
      omega
  | tearingDown call => rfl
  | finished => rfl

end Turns

/-! ### Room -/

/-- The reader has something to hand over to the scheduler. -/
def awaitsScheduler (s : Session) : Bool :=
  match s.reader with
  | .handling errand _ => errand.isTimed
  | _ => false

/-- A reader that finds no room waits for the scheduler, or for others who go first and to
whom all the room is promised; or else the write queue can go on and make room. -/
theorem room_of_awaitsRoom {s : Session} (flow : s.Flowing) (own : s.Uncontested)
    (sound : s.writer ≠ .crashed) (alive : s.teardown.hasFired = false)
    (awaits : s.awaitsRoom = true) :
    s.awaitsScheduler = true ∨ s.step .outbox ≠ none ∨
      s.outbox.incoming.capacity ≤ s.outbox.incoming.line.idxOf .reader := by
  have running := flow.isRunning (not_isEnding alive sound)
  have listening := flow.isListening alive
  have goesOn (waiting : 0 < s.outbox.backlog) : s.step .outbox ≠ none := by
    obtain ⟨box, turn, -⟩ := Outbox.turn_of_backlog
      { s.outbox with hasSenders := s.hasSenders } running listening waiting
    simp [step, stepOutbox, alive, turn]
  unfold awaitsRoom at awaits
  split at awaits
  · rename_i errand deadline phase
    have full : (s.attempt errand).1 = .full := by simpa using awaits
    cases errand with
    | cancel ref =>
        rcases Mailbox.ahead_of_full _ _ _ full with filled | promised
        · exact .inr (.inl (goesOn (Nat.add_pos_right _ (List.length_pos_iff.mpr filled))))
        · rw [own.idxOf_reader] at promised
          exact absurd own.capacity (Nat.not_lt.mpr promised)
    | announce interested thenRequest =>
        rcases Mailbox.ahead_of_full _ _ _ full with filled | promised
        · exact .inr (.inl (goesOn (Nat.add_pos_left (List.length_pos_iff.mpr filled) _)))
        · exact .inr (.inr promised)
    | deliver block => exact .inl (by simp [awaitsScheduler, phase, Errand.isTimed])
    | request remote => exact .inl (by simp [awaitsScheduler, phase, Errand.isTimed])
  · contradiction

end Session

end PeerWire

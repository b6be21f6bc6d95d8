import Mathlib.Data.List.Infix
import PeerWire.Proofs.Teardown
import PeerWire.Session.Step

/-!
What a single step of a connection can do. A step of the writer is one of the moves of
`WriterMove`, a step of the reader one of those of `ReaderMove`, each with the state it
leads to and with what must have been the case before. Whatever happens outside the
tasks keeps to `Outside`. Invariants are shown move by move, and never by opening the
step functions again.
-/

namespace PeerWire

/-- The wire is not up yet. -/
def WriterPhase.isBringingUp : WriterPhase → Bool
  | .starting | .dialing _ | .greeting _ _ => true
  | _ => false

/-- What we hold is to be written, as the first message. -/
def WriteJob.isAnnounce : WriteJob → Bool
  | .announce _ => true
  | .relay _ | .keepAlive => false

/-- The reader reads or handles a message, and a teardown ends it. -/
def ReaderPhase.isAtWork : ReaderPhase → Bool
  | .reading _ | .handling _ _ => true
  | _ => false

namespace Session

/-! ### The writer -/

/-- A message was written. -/
def record (s : Session) (message : Message) : Session :=
  { s with transport := { s.transport with outbound := { s.transport.outbound with
    written := s.transport.outbound.written ++ [message] } } }

/-- A step of the writer. -/
inductive WriterMove (s : Session) : Session → Prop where
  /-- A teardown ends the task before the wire is up. -/
  | cut (phase : s.writer.isBringingUp = true) (fired : s.teardown.hasFired = true) :
      WriterMove s (s.stopWriter .finished)
  /-- The wire could not be brought up. -/
  | abort {reason : Ending} (phase : s.writer.isBringingUp = true)
      (alive : s.teardown.hasFired = false)
      (cause : (∃ text, reason = .connect text) ∨ ∃ text, reason = .handshake text) :
      WriterMove s (s.failWriter reason false)
  | dial (phase : s.writer = .starting) (alive : s.teardown.hasFired = false)
      (sized : s.field.pieces = s.pieces) (unadopted : s.transport.adopted = none) :
      WriterMove s { s with
        transport := { s.transport with dials := s.transport.dials + 1 }
        writer := .dialing (Clock.timer s.now s.settings.connectTimeout) }
  | connected {deadline : Nat} (phase : s.writer = .dialing deadline)
      (alive : s.teardown.hasFired = false) (up : s.transport.dial = .connected) :
      WriterMove s { s with
        writer := .greeting (Clock.timer s.now s.settings.ioTimeout) false }
  /-- Our handshake was sent. -/
  | greeted {deadline : Nat} (phase : s.writer = .greeting deadline false)
      (alive : s.teardown.hasFired = false) :
      WriterMove s { s with
        transport := { s.transport with
          outbound := { s.transport.outbound with hasGreeted := true } }
        writer := .greeting deadline true }
  /-- An adopted wire is up from the start. -/
  | adopt {peerId : PeerId} (phase : s.writer = .starting) (alive : s.teardown.hasFired = false)
      (sized : s.field.pieces = s.pieces) (adopted : s.transport.adopted = some peerId) :
      WriterMove s (s.establish peerId)
  /-- The remote's handshake was accepted. -/
  | welcome {deadline : Nat} {peerId : PeerId} {rest : List UInt8}
      (phase : s.writer = .greeting deadline true) (alive : s.teardown.hasFired = false)
      (accepted : Handshake.receive s.identity.infoHash s.transport.inbound.waiting
        s.transport.inbound.hasEnded = .accepted peerId rest) :
      WriterMove s ({ s with transport := { s.transport with
        inbound := s.transport.inbound.leaving rest } }.establish peerId)
  /-- The announcement is written, and the reader begins. -/
  | announced {bits : List UInt8} {deadline : Option Nat}
      (phase : s.writer = .writing (.announce bits) deadline)
      (unbroken : s.transport.outbound.failure = none) :
      WriterMove s { s.record (.bitfield bits) with
        reader := .reading s.readDeadline
        writer := .idle (Clock.timer s.now s.settings.keepAlive) }
  | wrote {job : WriteJob} {deadline : Option Nat} {keepAliveAt : Nat}
      (phase : s.writer = .writing job deadline) (further : job.isAnnounce = false)
      (unbroken : s.transport.outbound.failure = none)
      (named : Clock.after? s.now s.settings.keepAlive = some keepAliveAt) :
      WriterMove s { s.record job.message with writer := .idle keepAliveAt }
  /-- The clock cannot name the moment of the next keep-alive. -/
  | crash {job : WriteJob} {deadline : Option Nat} (phase : s.writer = .writing job deadline)
      (further : job.isAnnounce = false) (unbroken : s.transport.outbound.failure = none)
      (unnamed : Clock.after? s.now s.settings.keepAlive = none) :
      WriterMove s ((s.record job.message).stopWriter .crashed)
  /-- The write failed, or took too long. -/
  | failed {job : WriteJob} {deadline : Option Nat} {text : String}
      (phase : s.writer = .writing job deadline)
      (cause : s.transport.outbound.failure ≠ none ∨
        (s.transport.outbound.isOpen = false ∧ s.isDue deadline = true)) :
      WriterMove s (s.failWrite job text)
  | close {keepAliveAt : Nat} (phase : s.writer = .idle keepAliveAt)
      (fired : s.teardown.hasFired = true) : WriterMove s s.beginClose
  | relay {keepAliveAt : Nat} {message : Message} {rest : List Message}
      (phase : s.writer = .idle keepAliveAt) (alive : s.teardown.hasFired = false)
      (front : s.outbox.slot.items = message :: rest) :
      WriterMove s ({ s with outbox := { s.outbox with
        slot := (s.outbox.slot.take 1).2 } }.beginWrite (.relay message))
  /-- The outbox has stopped, and nothing of it is left. -/
  | dryUp {keepAliveAt : Nat} (phase : s.writer = .idle keepAliveAt)
      (alive : s.teardown.hasFired = false) (empty : s.outbox.slot.items = [])
      (stopped : s.outbox.hasStopped = true) : WriterMove s (s.failWriter .cancelled true)
  | keepAlive {keepAliveAt : Nat} (phase : s.writer = .idle keepAliveAt)
      (alive : s.teardown.hasFired = false) (empty : s.outbox.slot.items = [])
      (due : keepAliveAt ≤ s.now) : WriterMove s (s.beginWrite .keepAlive)
  /-- Its own call for the end is over. -/
  | released {call : Nat} {up : Bool} (phase : s.writer = .tearingDown call up)
      (ended : s.teardown.hasEnded call = true) :
      WriterMove s (if up then s.beginClose else s.stopWriter .finished)
  | calling {call : Nat} {up : Bool} {teardown : Teardown}
      (phase : s.writer = .tearingDown call up)
      (move : s.teardown.CallMove call s.now teardown) : WriterMove s { s with teardown }
  | closed {deadline : Option Nat} (phase : s.writer = .closing deadline) :
      WriterMove s { s with writer := .joining }
  | joined (phase : s.writer = .joining)
      (ended : s.reader = .absent ∨ s.reader = .finished) : WriterMove s (s.stopWriter .finished)

section Writer

variable {s s' : Session}

theorem writerMove_of_startWriter (phase : s.writer = .starting) :
    WriterMove s s.startWriter := by
  have bringing : s.writer.isBringingUp = true := by rw [phase]; rfl
  unfold startWriter
  split
  · exact .cut bringing ‹_›
  · rename_i unfired
    have alive : s.teardown.hasFired = false := by simpa using unfired
    split
    · exact .abort bringing alive (.inl ⟨_, rfl⟩)
    · rename_i sized
      split
      · exact .adopt phase alive (by simpa using sized) ‹_›
      · exact .dial phase alive (by simpa using sized) ‹_›

theorem writerMove_of_stepDial {deadline : Nat} (phase : s.writer = .dialing deadline)
    (step : s.stepDial deadline = some s') : WriterMove s s' := by
  have bringing : s.writer.isBringingUp = true := by rw [phase]; rfl
  unfold stepDial at step
  split at step
  · cases step; exact .cut bringing ‹_›
  · rename_i unfired
    have alive : s.teardown.hasFired = false := by simpa using unfired
    split at step
    · cases step; exact .connected phase alive ‹_›
    · cases step; exact .abort bringing alive (.inl ⟨_, rfl⟩)
    · split at step
      · cases step; exact .abort bringing alive (.inl ⟨_, rfl⟩)
      · contradiction

theorem writerMove_of_stepGreeting {deadline : Nat} {sent : Bool}
    (phase : s.writer = .greeting deadline sent)
    (step : s.stepGreeting deadline sent = some s') : WriterMove s s' := by
  have bringing : s.writer.isBringingUp = true := by rw [phase]; rfl
  unfold stepGreeting at step
  split at step
  · cases step; exact .cut bringing ‹_›
  · rename_i unfired
    have alive : s.teardown.hasFired = false := by simpa using unfired
    cases sent with
    | false =>
        simp only [Bool.not_false, if_true] at step
        split at step
        · split at step
          · cases step; exact .abort bringing alive (.inr ⟨_, rfl⟩)
          · cases step; exact .greeted phase alive
        · split at step
          · cases step; exact .abort bringing alive (.inr ⟨_, rfl⟩)
          · contradiction
    | true =>
        simp only [Bool.not_true, Bool.false_eq_true, if_false] at step
        split at step
        · cases step; exact .welcome phase alive ‹_›
        · cases step; exact .abort bringing alive (.inr ⟨_, rfl⟩)
        · split at step
          · cases step; exact .abort bringing alive (.inr ⟨_, rfl⟩)
          · split at step
            · cases step; exact .abort bringing alive (.inr ⟨_, rfl⟩)
            · contradiction

theorem writerMove_of_afterWrite {job : WriteJob} {deadline : Option Nat}
    (phase : s.writer = .writing job deadline) (further : job.isAnnounce = false)
    (unbroken : s.transport.outbound.failure = none) :
    WriterMove s ((s.record job.message).afterWrite job) := by
  cases job with
  | announce bits => contradiction
  | _ =>
      unfold afterWrite
      dsimp only
      split
      · exact .wrote phase further unbroken ‹_›
      · exact .crash phase further unbroken ‹_›

theorem writerMove_of_stepWrite {job : WriteJob} {deadline : Option Nat}
    (phase : s.writer = .writing job deadline)
    (step : s.stepWrite job deadline = some s') : WriterMove s s' := by
  unfold stepWrite at step
  split at step
  · split at step
    · rename_i text broken
      cases step
      exact .failed phase (.inl (by simp [broken]))
    · rename_i unbroken
      cases step
      cases job with
      | announce bits => exact .announced phase unbroken
      | relay message => exact writerMove_of_afterWrite phase rfl unbroken
      | keepAlive => exact writerMove_of_afterWrite phase rfl unbroken
  · rename_i shut
    split at step
    · rename_i due
      cases step
      exact .failed phase (.inr ⟨by simpa using shut, due⟩)
    · contradiction

theorem writerMove_of_stepIdle {keepAliveAt : Nat} (phase : s.writer = .idle keepAliveAt)
    (step : s.stepIdle keepAliveAt = some s') : WriterMove s s' := by
  unfold stepIdle at step
  split at step
  · cases step; exact .close phase ‹_›
  · rename_i unfired
    have alive : s.teardown.hasFired = false := by simpa using unfired
    split at step
    · cases step; exact .relay phase alive ‹_›
    · split at step
      · cases step; exact .dryUp phase alive ‹_› ‹_›
      · split at step
        · cases step; exact .keepAlive phase alive ‹_› ‹_›
        · contradiction

/-- Every step of the writer is one of its moves. -/
theorem writerMove_of_step (step : s.stepWriter = some s') : WriterMove s s' := by
  unfold stepWriter at step
  split at step
  · cases step; exact writerMove_of_startWriter ‹_›
  · exact writerMove_of_stepDial ‹_› step
  · exact writerMove_of_stepGreeting ‹_› step
  · exact writerMove_of_stepWrite ‹_› step
  · exact writerMove_of_stepIdle ‹_› step
  · split at step
    · cases step; exact .released ‹_› ‹_›
    · obtain ⟨teardown, advanced, rfl⟩ := Option.map_eq_some_iff.mp step
      exact .calling ‹_› (Teardown.callMove_of_advance advanced)
  · unfold stepClose at step
    split at step
    · cases step; exact .closed ‹_›
    · contradiction
  · rename_i phase
    split at step
    · cases step; exact .joined phase (.inl ‹_›)
    · cases step; exact .joined phase (.inr ‹_›)
    · contradiction
  · contradiction
  · contradiction

/-- A writer that has returned or crashed takes no step. -/
theorem WriterMove.not_gone (move : WriterMove s s') :
    ¬ (s.writer = .finished ∨ s.writer = .crashed) := by
  rintro (gone | gone) <;> cases move <;> simp_all [WriterPhase.isBringingUp]

end Writer

/-! ### The reader -/

/-- A step of the reader. -/
inductive ReaderMove (s : Session) : Session → Prop where
  /-- A teardown ends the task. -/
  | cut (phase : s.reader.isAtWork = true) (fired : s.teardown.hasFired = true) :
      ReaderMove s s.stopReader
  | read {deadline : Option Nat} {outcome : ReadOutcome} {inbound : Inbound}
      (phase : s.reader = .reading deadline) (alive : s.teardown.hasFired = false)
      (polled : s.transport.inbound.poll = some (outcome, inbound)) :
      ReaderMove s ({ s with transport := { s.transport with inbound } }.afterRead outcome)
  /-- Nothing could be read in time. -/
  | starved {deadline : Option Nat} (phase : s.reader = .reading deadline)
      (alive : s.teardown.hasFired = false) (due : s.isDue deadline = true)
      (dry : s.transport.inbound.poll = none) :
      ReaderMove s (s.afterRead (.failed (.peer (.timeout "read"))))
  | handed {errand : Errand} {deadline : Option Nat} (phase : s.reader = .handling errand deadline)
      (alive : s.teardown.hasFired = false) (receipt : (s.attempt errand).1 = .accepted) :
      ReaderMove s ((s.attempt errand).2.resume errand .accepted)
  | turnedAway {errand : Errand} {deadline : Option Nat}
      (phase : s.reader = .handling errand deadline)
      (alive : s.teardown.hasFired = false) (receipt : (s.attempt errand).1 = .closed) :
      ReaderMove s ((s.attempt errand).2.resume errand .closed)
  /-- There was no room in time. -/
  | expired {errand : Errand} {deadline : Option Nat} (phase : s.reader = .handling errand deadline)
      (alive : s.teardown.hasFired = false) (receipt : (s.attempt errand).1 = .full)
      (due : s.isDue deadline = true) :
      ReaderMove s (((s.attempt errand).2.leaveLine errand).resume errand .expired)
  | queued {errand : Errand} {deadline : Option Nat} (phase : s.reader = .handling errand deadline)
      (alive : s.teardown.hasFired = false) (receipt : (s.attempt errand).1 = .full) :
      ReaderMove s (s.attempt errand).2
  /-- Its own call for the end is over. -/
  | released {call : Nat} (phase : s.reader = .tearingDown call)
      (ended : s.teardown.hasEnded call = true) : ReaderMove s s.stopReader
  | calling {call : Nat} {teardown : Teardown} (phase : s.reader = .tearingDown call)
      (move : s.teardown.CallMove call s.now teardown) : ReaderMove s { s with teardown }

section Reader

variable {s s' : Session}

theorem readerMove_of_stepRead {deadline : Option Nat} (phase : s.reader = .reading deadline)
    (step : s.stepRead deadline = some s') : ReaderMove s s' := by
  unfold stepRead at step
  split at step
  · cases step; exact .cut (by rw [phase]; rfl) ‹_›
  · rename_i unfired
    have alive : s.teardown.hasFired = false := by simpa using unfired
    split at step
    · cases step; exact .read phase alive ‹_›
    · split at step
      · cases step; exact .starved phase alive ‹_› ‹_›
      · contradiction

theorem readerMove_of_stepHandling {errand : Errand} {deadline : Option Nat}
    (phase : s.reader = .handling errand deadline)
    (step : s.stepHandling errand deadline = some s') : ReaderMove s s' := by
  unfold stepHandling at step
  split at step
  · cases step; exact .cut (by rw [phase]; rfl) ‹_›
  · rename_i unfired
    have alive : s.teardown.hasFired = false := by simpa using unfired
    split at step
    · rename_i handed
      cases step
      have move : ReaderMove s ((s.attempt errand).2.resume errand .accepted) :=
        .handed phase alive (by rw [handed])
      rwa [handed] at move
    · rename_i handed
      cases step
      have move : ReaderMove s ((s.attempt errand).2.resume errand .closed) :=
        .turnedAway phase alive (by rw [handed])
      rwa [handed] at move
    · rename_i handed
      split at step
      · rename_i due
        cases step
        have move : ReaderMove s (((s.attempt errand).2.leaveLine errand).resume errand .expired) :=
          .expired phase alive (by rw [handed]) due
        rwa [handed] at move
      · split at step
        · contradiction
        · cases step
          have move : ReaderMove s (s.attempt errand).2 := .queued phase alive (by rw [handed])
          rwa [handed] at move

/-- Every step of the reader is one of its moves. -/
theorem readerMove_of_step (step : s.stepReader = some s') : ReaderMove s s' := by
  unfold stepReader at step
  split at step
  · exact readerMove_of_stepRead ‹_› step
  · exact readerMove_of_stepHandling ‹_› step
  · split at step
    · cases step; exact .released ‹_› ‹_›
    · obtain ⟨teardown, advanced, rfl⟩ := Option.map_eq_some_iff.mp step
      exact .calling ‹_› (Teardown.callMove_of_advance advanced)
  · contradiction
  · contradiction

end Reader

/-! ### What the moves leave alone -/

section Frames

variable (s : Session)

@[simp] theorem attempt_reader (errand : Errand) : (s.attempt errand).2.reader = s.reader := by
  cases errand <;> rfl

@[simp] theorem attempt_conversation (errand : Errand) :
    (s.attempt errand).2.conversation = s.conversation := by
  cases errand <;> rfl

@[simp] theorem attempt_transport (errand : Errand) :
    (s.attempt errand).2.transport = s.transport := by
  cases errand <;> rfl

@[simp] theorem attempt_hasFired (errand : Errand) :
    (s.attempt errand).2.teardown.hasFired = s.teardown.hasFired := by
  cases errand <;> rfl

end Frames

/-- How a turn of the reader leaves the teardown, and where the reader waits then. -/
inductive ReaderTurn (s : Session) : Session → Prop where
  /-- The reader goes on, and the teardown has changed in its deliveries at most. -/
  | onward {s' : Session} {deliveries : Mailbox Delivery} (before : s.reader.isAtWork = true)
      (alive : s.teardown.hasFired = false) (after : s'.reader.isAtWork = true)
      (teardown : s'.teardown = { s.teardown with deliveries }) : ReaderTurn s s'
  | failed {s' : Session} {deliveries : Mailbox Delivery} {reason : Ending}
      (before : s.reader.isAtWork = true) (alive : s.teardown.hasFired = false)
      (after : s'.reader = .tearingDown s.teardown.nextCall)
      (teardown : s'.teardown = ({ s.teardown with deliveries } : Teardown).trigger reason s.now) :
      ReaderTurn s s'
  | stopped {s' : Session} {deliveries : Mailbox Delivery}
      (before : (s.reader.isAtWork = true ∧ s.teardown.hasFired = true) ∨
        ∃ call, s.reader = .tearingDown call ∧ s.teardown.hasEnded call = true)
      (after : s'.reader = .finished)
      (teardown : s'.teardown = { s.teardown with deliveries }) : ReaderTurn s s'
  | calling {s' : Session} {call : Nat} (before : s.reader = .tearingDown call)
      (after : s'.reader = s.reader) (move : s.teardown.CallMove call s.now s'.teardown) :
      ReaderTurn s s'

section Turns

variable {s s' : Session}

/-- After a message was handled as far as it goes, the reader is at work or has failed. -/
theorem proceed_turn (u : Session) (handled : Conversation × Progress) :
    ((u.proceed handled).reader.isAtWork = true ∧ (u.proceed handled).teardown = u.teardown) ∨
      ∃ reason, (u.proceed handled).reader = .tearingDown u.teardown.nextCall ∧
        (u.proceed handled).teardown = u.teardown.trigger reason u.now := by
  obtain ⟨conversation, progress⟩ := handled
  cases progress with
  | done outcome =>
      cases outcome with
      | ok => exact .inl ⟨rfl, rfl⟩
      | error failure => exact .inr ⟨_, rfl, rfl⟩
  | handing errand => exact .inl ⟨rfl, rfl⟩

/-- A keep-alive is handled like any other message, except that it cannot fail. -/
theorem afterRead_message (u : Session) (message : Message) :
    u.afterRead (.message message) =
      u.proceed (u.conversation.receive u.field u.now message) := by
  cases message <;> rfl

theorem afterRead_turn (u : Session) (outcome : ReadOutcome) :
    ((u.afterRead outcome).reader.isAtWork = true ∧
        (u.afterRead outcome).teardown = u.teardown) ∨
      ∃ reason, (u.afterRead outcome).reader = .tearingDown u.teardown.nextCall ∧
        (u.afterRead outcome).teardown = u.teardown.trigger reason u.now := by
  cases outcome with
  | message message =>
      rw [afterRead_message]
      exact proceed_turn u _
  | ended => exact .inr ⟨_, rfl, rfl⟩
  | failed failure => exact .inr ⟨_, rfl, rfl⟩

theorem attempt_teardown (u : Session) (errand : Errand) : (u.attempt errand).2.teardown =
    { u.teardown with deliveries := (u.attempt errand).2.teardown.deliveries } := by
  cases errand <;> rfl

theorem leaveLine_teardown (u : Session) (errand : Errand) : (u.leaveLine errand).teardown =
    { u.teardown with deliveries := (u.leaveLine errand).teardown.deliveries } := by
  cases errand <;> rfl

/-- A turn that starts from a state with another room for deliveries. -/
theorem ReaderTurn.of_proceed {u : Session} (deliveries : Mailbox Delivery)
    (before : s.reader.isAtWork = true) (alive : s.teardown.hasFired = false)
    (teardown : u.teardown = { s.teardown with deliveries }) (now : u.now = s.now)
    (turn : (s'.reader.isAtWork = true ∧ s'.teardown = u.teardown) ∨
      ∃ reason, s'.reader = .tearingDown u.teardown.nextCall ∧
        s'.teardown = u.teardown.trigger reason u.now) : ReaderTurn s s' := by
  rcases turn with ⟨after, same⟩ | ⟨reason, after, triggered⟩
  · exact .onward before alive after (same.trans teardown)
  · have call : u.teardown.nextCall = s.teardown.nextCall := by rw [teardown]; rfl
    rw [teardown, now] at triggered
    exact .failed before alive (after.trans (by rw [call])) triggered

theorem ReaderMove.turn (move : ReaderMove s s') : ReaderTurn s s' := by
  cases move with
  | cut phase fired => exact .stopped (.inl ⟨phase, fired⟩) rfl rfl
  | read phase alive polled =>
      exact .of_proceed _ (by rw [phase]; rfl) alive rfl rfl (afterRead_turn _ _)
  | starved phase alive due =>
      exact .of_proceed _ (by rw [phase]; rfl) alive rfl rfl (afterRead_turn _ _)
  | @handed errand _ phase alive receipt =>
      exact .of_proceed _ (by rw [phase]; rfl) alive (attempt_teardown s errand)
        (by cases errand <;> rfl) (proceed_turn _ _)
  | @turnedAway errand _ phase alive receipt =>
      exact .of_proceed _ (by rw [phase]; rfl) alive (attempt_teardown s errand)
        (by cases errand <;> rfl) (proceed_turn _ _)
  | @expired errand _ phase alive receipt due =>
      have left : ((s.attempt errand).2.leaveLine errand).teardown = { s.teardown with
          deliveries := ((s.attempt errand).2.leaveLine errand).teardown.deliveries } := by
        rw [leaveLine_teardown, attempt_teardown]
      exact .of_proceed _ (by rw [phase]; rfl) alive left (by cases errand <;> rfl)
        (proceed_turn _ _)
  | @queued errand _ phase alive receipt =>
      exact .onward (by rw [phase]; rfl) alive (by rw [attempt_reader, phase]; rfl)
        (attempt_teardown s errand)
  | released phase ended => exact .stopped (.inr ⟨_, phase, ended⟩) rfl rfl
  | calling phase move => exact .calling phase rfl move

end Turns

/-- A reader that takes steps was started, and stays that way. -/
theorem ReaderMove.started {s s' : Session} (move : ReaderMove s s') :
    s.reader ≠ .absent ∧ s'.reader ≠ .absent := by
  cases move.turn with
  | onward before alive after teardown =>
      exact ⟨fun absent => by simp [absent, ReaderPhase.isAtWork] at before,
        fun absent => by simp [absent, ReaderPhase.isAtWork] at after⟩
  | failed before alive after teardown =>
      exact ⟨fun absent => by simp [absent, ReaderPhase.isAtWork] at before,
        fun absent => by simp [absent] at after⟩
  | stopped before after teardown =>
      refine ⟨?_, fun absent => by simp [absent] at after⟩
      intro absent
      rcases before with ⟨atWork, _⟩ | ⟨call, own, _⟩
      · simp [absent, ReaderPhase.isAtWork] at atWork
      · simp [absent] at own
  | calling before after move =>
      exact ⟨fun absent => by simp [absent] at before,
        fun absent => by simp [after, before] at absent⟩

/-- What the reader leaves alone. Into the outbox it puts things at the back of the two
inputs, and nothing else of it is its business. -/
structure ReaderFrame (s s' : Session) : Prop where
  identity : s'.identity = s.identity
  writer : s'.writer = s.writer
  ownerCalls : s'.ownerCalls = s.ownerCalls
  settings : s'.settings = s.settings
  pieces : s'.pieces = s.pieces
  now : s'.now = s.now
  outbound : s'.transport.outbound = s.transport.outbound
  adopted : s'.transport.adopted = s.transport.adopted
  outbox : s'.outbox = { s.outbox with
    incoming := s'.outbox.incoming
    cancels := s'.outbox.cancels }
  incoming : s'.outbox.incoming.isOpen = s.outbox.incoming.isOpen
  cancels : s'.outbox.cancels.isOpen = s.outbox.cancels.isOpen
  cancelled : s.outbox.cancels.Visited .reader s'.outbox.cancels
  entered : s.outbox.incoming.items <+: s'.outbox.incoming.items

namespace ReaderFrame

variable {s s' s'' : Session}

/-- Nothing at all happens to the outbox. -/
theorem of_outbox (outbox : s'.outbox = s.outbox) (identity : s'.identity = s.identity)
    (writer : s'.writer = s.writer)
    (ownerCalls : s'.ownerCalls = s.ownerCalls) (settings : s'.settings = s.settings)
    (pieces : s'.pieces = s.pieces) (now : s'.now = s.now)
    (outbound : s'.transport.outbound = s.transport.outbound)
    (adopted : s'.transport.adopted = s.transport.adopted) : ReaderFrame s s' := by
  constructor <;> first | assumption | exact .of_line (by rw [outbox]) (by rw [outbox]) |
    simp [outbox]

theorem trans (first : ReaderFrame s s') (second : ReaderFrame s' s'') : ReaderFrame s s'' where
  identity := second.identity.trans first.identity
  writer := second.writer.trans first.writer
  ownerCalls := second.ownerCalls.trans first.ownerCalls
  settings := second.settings.trans first.settings
  pieces := second.pieces.trans first.pieces
  now := second.now.trans first.now
  outbound := second.outbound.trans first.outbound
  adopted := second.adopted.trans first.adopted
  outbox := by rw [second.outbox, first.outbox]
  incoming := second.incoming.trans first.incoming
  cancels := second.cancels.trans first.cancels
  cancelled := first.cancelled.trans second.cancelled
  entered := first.entered.trans second.entered

theorem attempt (s : Session) (errand : Errand) : ReaderFrame s (s.attempt errand).2 := by
  cases errand with
  | cancel ref =>
      constructor <;> first | rfl | exact Mailbox.isOpen_send _ _ _ | exact .send _ _ _
  | announce interested thenRequest =>
      constructor <;> first | rfl | exact .of_line rfl rfl | exact Mailbox.isOpen_send _ _ _ |
        exact Mailbox.prefix_send _ _ _
  | _ => exact of_outbox rfl rfl rfl rfl rfl rfl rfl rfl rfl

theorem leaveLine (s : Session) (errand : Errand) : ReaderFrame s (s.leaveLine errand) := by
  cases errand <;> constructor <;> first | rfl | exact .leave _ _ | exact .of_line rfl rfl

theorem proceed (s : Session) (handled : Conversation × Progress) :
    ReaderFrame s (s.proceed handled) := by
  obtain ⟨conversation, progress⟩ := handled
  cases progress with
  | done outcome => cases outcome <;> exact of_outbox rfl rfl rfl rfl rfl rfl rfl rfl rfl
  | handing errand => exact of_outbox rfl rfl rfl rfl rfl rfl rfl rfl rfl

theorem afterRead (s : Session) (outcome : ReadOutcome) : ReaderFrame s (s.afterRead outcome) := by
  cases outcome with
  | message message =>
      rw [afterRead_message]
      exact proceed s _
  | _ => exact of_outbox rfl rfl rfl rfl rfl rfl rfl rfl rfl

theorem stopReader (s : Session) : ReaderFrame s s.stopReader := by
  constructor <;> first | rfl | exact .leave _ _

end ReaderFrame

theorem ReaderMove.frame {s s' : Session} (move : ReaderMove s s') : ReaderFrame s s' := by
  cases move with
  | cut => exact .stopReader s
  | @read deadline outcome inbound =>
      have polled : ReaderFrame s
          ({ s with transport := { s.transport with inbound } } : Session) :=
        .of_outbox rfl rfl rfl rfl rfl rfl rfl rfl rfl
      exact polled.trans (.afterRead _ outcome)
  | starved => exact .afterRead _ _
  | handed => exact .trans (.attempt _ _) (.proceed _ _)
  | turnedAway => exact .trans (.attempt _ _) (.proceed _ _)
  | expired => exact .trans (.trans (.attempt _ _) (.leaveLine _ _)) (.proceed _ _)
  | queued => exact .attempt _ _
  | released => exact .stopReader s
  | calling => exact .of_outbox rfl rfl rfl rfl rfl rfl rfl rfl rfl

/-! ### The other tasks and the surroundings -/

/-- What happens outside the tasks and is no call for the end leaves the tasks where they
wait. It may fill or empty the mailboxes that are shared with others, and close them. -/
structure Outside (s s' : Session) : Prop where
  identity : s'.identity = s.identity
  writer : s'.writer = s.writer
  reader : s'.reader = s.reader
  conversation : s'.conversation = s.conversation
  status : s'.status = s.status
  ownerCalls : s'.ownerCalls = s.ownerCalls
  settings : s'.settings = s.settings
  pieces : s'.pieces = s.pieces
  teardown : s'.teardown = { s.teardown with
    exits := s'.teardown.exits
    deliveries := s'.teardown.deliveries }
  exits : s'.teardown.exits.isOpen = true → s.teardown.exits.isOpen = true
  outbox : s'.outbox = { s.outbox with incoming := s'.outbox.incoming }
  incoming : s'.outbox.incoming.isOpen = s.outbox.incoming.isOpen
  entered : s.outbox.incoming.items <+: s'.outbox.incoming.items
  greeted : s'.transport.outbound.hasGreeted = s.transport.outbound.hasGreeted
  written : s'.transport.outbound.written = s.transport.outbound.written
  closes : s'.transport.outbound.closes = s.transport.outbound.closes
  adopted : s'.transport.adopted = s.transport.adopted
  dials : s'.transport.dials = s.transport.dials

/-- A task of the connection takes a step. -/
def Event.isTask : Event → Bool
  | .task _ => true
  | _ => false

/-- Somebody outside puts something into a mailbox. -/
def Event.isPost : Event → Bool
  | .post _ _ => true
  | _ => false

/-- Whatever happens to a connection is one of these. Of what happens outside, only what
others put into the exits gets there. -/
inductive Move (s : Session) : Event → Session → Prop where
  /-- A task that has to wait. -/
  | wait {task : Task} (stuck : s.step task = none) : Move s (.task task) s
  | outbox {box : Outbox}
      (turn : ({ s.outbox with hasSenders := s.hasSenders } : Outbox).turn s.teardown.hasFired =
        some box) : Move s (.task .outbox) { s with outbox := box }
  | writer {s' : Session} (move : WriterMove s s') : Move s (.task .writer) s'
  | reader {s' : Session} (move : ReaderMove s s') : Move s (.task .reader) s'
  | call {number : Nat} {teardown : Teardown} (made : number ∈ s.ownerCalls)
      (move : s.teardown.CallMove number s.now teardown) :
      Move s (.task (.call number)) { s with teardown }
  | shutdown : Move s .shutdown s.shutdown
  | abandon {number : Nat} (made : number ∈ s.ownerCalls) :
      Move s (.abandonCall number) { s with teardown := s.teardown.abandon number }
  | outside {event : Event} {s' : Session} (surroundings : event.isTask = false)
      (frame : Outside s s')
      (silent : event.isPost = false → s.teardown.exits.gained s'.teardown.exits = []) :
      Move s event s'

section Events

variable (s : Session)

theorem Outside.refl : Outside s s := by
  constructor <;> first | rfl | exact id

variable {s} in
/-- What happens outside and has nothing to do with the exits. -/
theorem Move.elsewhere {s' : Session} {event : Event} (surroundings : event.isTask = false)
    (frame : Outside s s') (exits : s'.teardown.exits = s.teardown.exits) : Move s event s' :=
  .outside surroundings frame fun _ => by rw [exits, Mailbox.gained_self]

theorem outside_post (party : Party) (parcel : Parcel) : Outside s (s.post party parcel).2 := by
  cases parcel with
  | request request =>
      unfold post
      dsimp only
      split
      · exact .refl s
      · constructor <;> first | rfl | exact id
  | report report => constructor <;> first | rfl | simp [post]
  | delivery delivery => constructor <;> first | rfl | exact id
  | answer message => constructor <;> first | rfl | exact id | simp [post, Mailbox.prefix_send]

theorem after_move (event : Event) : Move s event (s.after event) := by
  cases event with
  | task task =>
      cases stepped : s.step task with
      | none =>
          have same : s.after (.task task) = s := by simp [after, stepped]
          rw [same]
          exact .wait stepped
      | some s' =>
          have moved : s.after (.task task) = s' := by simp [after, stepped]
          rw [moved]
          cases task with
          | outbox =>
              obtain ⟨box, turn, rfl⟩ := Option.map_eq_some_iff.mp stepped
              exact .outbox turn
          | writer => exact .writer (writerMove_of_step stepped)
          | reader => exact .reader (readerMove_of_step stepped)
          | call number =>
              simp only [step] at stepped
              split at stepped
              · rename_i made
                obtain ⟨teardown, advanced, rfl⟩ := Option.map_eq_some_iff.mp stepped
                exact .call made (Teardown.callMove_of_advance advanced)
              · contradiction
  | shutdown => exact .shutdown
  | abandonCall number =>
      simp only [after, abandonCall]
      split
      · exact .abandon ‹_›
      · exact .elsewhere rfl (.refl s) rfl
  | post party parcel =>
      simp only [after]
      split
      · exact .outside rfl (outside_post s party parcel) nofun
      · exact .outside rfl (.refl s) nofun
  | giveUp party =>
      simp only [after]
      split
      · exact .outside rfl (by constructor <;> first | rfl | exact id) fun _ =>
          Mailbox.gained_leave _ _
      · exact .elsewhere rfl (.refl s) rfl
  | remoteSends item =>
      simp only [after, remoteSends]
      split
      · exact .elsewhere rfl (by constructor <;> first | rfl | exact id) rfl
      · exact .elsewhere rfl (.refl s) rfl
  | remoteSendsBytes bytes =>
      simp only [after, remoteSendsBytes]
      split
      · exact .elsewhere rfl (by constructor <;> first | rfl | exact id) rfl
      · exact .elsewhere rfl (.refl s) rfl
  | dropResponder =>
      simp only [after, dropResponder]
      split
      · exact .elsewhere rfl (by constructor <;> first | rfl | exact id) rfl
      · exact .elsewhere rfl (.refl s) rfl
  | respond message =>
      exact .elsewhere rfl (by
        constructor <;> first | rfl | exact id | simp [after, respond, Mailbox.prefix_offer]) rfl
  | takeExits most =>
      exact .outside rfl (by constructor <;> first | rfl | exact id) fun _ =>
        Mailbox.gained_take _ _
  | closeExits =>
      exact .outside rfl (by constructor <;> first | rfl | simp [after, closeExits]) fun _ =>
        Mailbox.gained_close _ _
  | _ =>
      exact .elsewhere rfl (by constructor <;> first | rfl | exact id) rfl

end Events

/-- What every move keeps is kept along any history. -/
theorem run_invariant {motive : Session → Prop} {s : Session} (start : motive s)
    (kept : ∀ {t t' : Session} {event : Event}, Move t event t' → motive t → motive t')
    (history : List Event) : motive (s.run history) :=
  List.foldlRecOn history after start fun t holds event _ => kept (after_move t event) holds

/-- The settings stay, and a wire is adopted or dialed once and for all. -/
theorem Move.settings {s s' : Session} {event : Event} (move : Move s event s') :
    s'.settings = s.settings ∧ s'.transport.adopted = s.transport.adopted := by
  cases move with
  | writer move =>
      cases move with
      | @released call up => cases up <;> exact ⟨rfl, rfl⟩
      | _ => exact ⟨rfl, rfl⟩
  | reader move => exact ⟨move.frame.settings, move.frame.adopted⟩
  | outside surroundings frame silent => exact ⟨frame.settings, frame.adopted⟩
  | _ => exact ⟨rfl, rfl⟩

/-- We are who we are once and for all. -/
theorem Move.identity_eq {s s' : Session} {event : Event} (move : Move s event s') :
    s'.identity = s.identity := by
  cases move with
  | writer move =>
      cases move with
      | @released call up => cases up <;> rfl
      | _ => rfl
  | reader move => exact move.frame.identity
  | outside surroundings frame silent => exact frame.identity
  | _ => rfl

/-- Nothing but its own step moves the writer. -/
theorem Move.writer_eq {s s' : Session} {event : Event} (move : Move s event s')
    (other : event ≠ .task .writer) : s'.writer = s.writer := by
  cases move with
  | writer => exact absurd rfl other
  | reader move => exact move.frame.writer
  | outside surroundings frame silent => exact frame.writer
  | _ => rfl

/-! ### The clock -/

/-- How much time passes at an event. -/
def Event.duration : Event → Nat
  | .wait duration => duration
  | _ => 0

theorem WriterMove.now_eq {s s' : Session} (move : WriterMove s s') : s'.now = s.now := by
  cases move with
  | @released call up => cases up <;> rfl
  | _ => rfl

theorem now_after (s : Session) (event : Event) :
    (s.after event).now = s.now + event.duration := by
  cases event with
  | task task =>
      generalize s.after (.task task) = s', after_move s (.task task) = move
      cases move with
      | writer move => exact move.now_eq
      | reader move => exact move.frame.now
      | outside surroundings => contradiction
      | _ => rfl
  | post party parcel =>
      unfold after
      dsimp only
      split
      · cases parcel with
        | request request =>
            unfold post
            dsimp only
            split <;> rfl
        | _ => rfl
      · rfl
  | remoteSends item =>
      unfold after remoteSends
      dsimp only
      split <;> rfl
  | remoteSendsBytes bytes =>
      unfold after remoteSendsBytes
      dsimp only
      split <;> rfl
  | giveUp party =>
      unfold after
      dsimp only
      split <;> rfl
  | abandonCall number =>
      unfold after abandonCall
      dsimp only
      split <;> rfl
  | dropResponder =>
      unfold after dropResponder
      dsimp only
      split <;> rfl
  | _ => rfl

/-- The clock only goes forward. -/
theorem now_le_after (s : Session) (event : Event) : s.now ≤ (s.after event).now := by
  rw [now_after]
  exact Nat.le_add_right _ _

/-! ### The teardown -/

section Teardown

variable {s s' : Session} {dropped : Nat → Prop}

theorem WriterMove.teardown_turn (move : WriterMove s s') :
    s.teardown.Turn s.now dropped (s.teardown.exits.gained s'.teardown.exits) s'.teardown := by
  have stays : ∀ t' : Teardown, t'.calls = s.teardown.calls → t'.hasFired = s.teardown.hasFired →
      t'.addr = s.teardown.addr → t'.exits = s.teardown.exits →
      s.teardown.Turn s.now dropped (s.teardown.exits.gained t'.exits) t' := by
    intro t' calls fired addr exits
    rw [exits, Mailbox.gained_self]
    exact .rest calls fired addr (by rw [exits]; exact id)
  have calls : ∀ reason, s.teardown.Turn s.now dropped
      (s.teardown.exits.gained (s.teardown.trigger reason s.now).exits)
      (s.teardown.trigger reason s.now) := by
    intro reason
    rw [Teardown.exits_trigger, Mailbox.gained_self]
    exact .trigger rfl rfl rfl rfl
  cases move with
  | abort => exact calls _
  | failed => exact calls _
  | dryUp => exact calls _
  | calling phase move => exact .call move
  | @released call up => cases up <;> exact stays _ rfl rfl rfl rfl
  | _ => exact stays _ rfl rfl rfl rfl

theorem ReaderMove.teardown_turn (move : ReaderMove s s') :
    s.teardown.Turn s.now dropped (s.teardown.exits.gained s'.teardown.exits) s'.teardown := by
  cases move.turn with
  | onward before alive after teardown =>
      rw [teardown, Mailbox.gained_self]
      exact .rest rfl rfl rfl id
  | @failed deliveries reason before alive after teardown =>
      rw [teardown, Teardown.exits_trigger, Mailbox.gained_self]
      exact .trigger rfl rfl rfl rfl
  | stopped before after teardown =>
      rw [teardown, Mailbox.gained_self]
      exact .rest rfl rfl rfl id
  | calling before after move => exact .call move

/-- What an event does to the teardown. Of its own, the connection puts reports into the
exits only through a call. -/
theorem Move.teardown_turn {event : Event} (move : Move s event s') :
    s.teardown.Turn s.now (fun number => event = .abandonCall number)
      (if event.isPost then [] else s.teardown.exits.gained s'.teardown.exits) s'.teardown := by
  cases move with
  | wait =>
      rw [Mailbox.gained_self, ite_self]
      exact .rest rfl rfl rfl id
  | outbox turn =>
      rw [Mailbox.gained_self, ite_self]
      exact .rest rfl rfl rfl id
  | writer move => exact move.teardown_turn
  | reader move => exact move.teardown_turn
  | call made move => exact .call move
  | shutdown =>
      have exits : s.shutdown.teardown.exits = s.teardown.exits := Teardown.exits_trigger _ _ _
      rw [exits, Mailbox.gained_self, ite_self]
      exact .trigger rfl rfl rfl rfl
  | @abandon number made =>
      have unmoved : s.teardown.exits.gained (s.teardown.abandon number).exits = [] := by
        unfold Teardown.abandon
        split
        · exact Mailbox.gained_self _
        · exact Mailbox.gained_leave _ _
      rw [unmoved, ite_self]
      exact .abandon rfl
  | outside surroundings frame silent =>
      have none : (if event.isPost then [] else
          s.teardown.exits.gained s'.teardown.exits) = [] := by
        split
        · rfl
        · rename_i own
          exact silent (by simpa using own)
      rw [none]
      refine .rest ?_ ?_ ?_ frame.exits <;> rw [frame.teardown]

end Teardown

end Session

end PeerWire

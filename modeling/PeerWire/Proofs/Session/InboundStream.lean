import PeerWire.Proofs.Handshake
import PeerWire.Proofs.Message.Walk
import PeerWire.Proofs.Session.ReaderTurns

/-!
The bytes that a remote sends decide how its connection ends and what comes of it. On a
dialed wire that nobody disturbs, the connection acts on the messages that a walk along
the bytes acts on, ends in the way the walk does, and nothing of what stands behind the
stopping point shows anywhere.

`Course` says where the connection stands on its way along the bytes. The ending follows
because the reader alone can call for it: the owner does not, no write fails, and what
the reader hands over is taken.
-/

namespace PeerWire

/-- Whether a delivery is a block. -/
def Delivery.isBlock : Delivery → Bool
  | .block _ _ => true
  | .disconnected _ => false

namespace Session

/-! ### What can be seen -/

/-- What enters the mailboxes that the reader sends to, between two states. The marker of
the connection's end aside, all of it comes from handling messages. -/
def emits (s s' : Session) : List Emission :=
  ((s.teardown.deliveries.gained s'.teardown.deliveries).filter (·.isBlock)).map .delivery ++
    (s.requests.gained s'.requests).map .request ++
    (s.outbox.incoming.gained s'.outbox.incoming).map .outbound ++
    (s.outbox.cancels.gained s'.outbox.cancels).map .cancel

/-- What the reader hands over at an event. -/
def emitted (s : Session) : Event → List Emission
  | .task .reader => s.emits (s.after (.task .reader))
  | _ => []

/-- All the bytes that arrive along a history. -/
def arrivals (s : Session) (history : List Event) : List UInt8 :=
  observe arrived s history

/-- All that the reader hands over along a history. -/
def emissions (s : Session) (history : List Event) : List Emission :=
  observe emitted s history

/-- Nothing disturbs the connection at an event: the owner does not call for the end, the
wire does not fail, no write fails, and the scheduler takes what it is handed in time. -/
structure Undisturbed (s : Session) (event : Event) : Prop where
  owner : event ≠ .shutdown
  wire : ∀ failure, event ≠ .remoteSends (.error failure)
  writes : event = .task .writer → ∀ job deadline, s.writer = .writing job deadline →
    s.transport.outbound.failure = none ∧
      (s.transport.outbound.isOpen = true ∨ s.isDue deadline = false)
  scheduler : event = .task .reader → ∀ errand deadline, s.reader = .handling errand deadline →
    errand.isTimed = true → (s.attempt errand).1 ≠ .closed ∧
      ((s.attempt errand).1 = .full → s.isDue deadline = false)

/-- Whether nothing disturbs the connection at an event. -/
def isUndisturbed (s : Session) : Event → Bool
  | .shutdown => false
  | .remoteSends (.error _) => false
  | .task .writer =>
      match s.writer with
      | .writing _ deadline =>
          s.transport.outbound.failure.isNone &&
            (s.transport.outbound.isOpen || !s.isDue deadline)
      | _ => true
  | .task .reader =>
      match s.reader with
      | .handling errand deadline =>
          !errand.isTimed ||
            match (s.attempt errand).1 with
            | .accepted => true
            | .closed => false
            | .full => !s.isDue deadline
      | _ => true
  | _ => true

theorem isUndisturbed_iff (s : Session) (event : Event) :
    s.isUndisturbed event = true ↔ s.Undisturbed event := by
  constructor
  · intro calm
    refine ⟨?_, ?_, ?_, ?_⟩
    · rintro rfl
      contradiction
    · rintro failure rfl
      contradiction
    · rintro rfl job deadline phase
      simpa [isUndisturbed, phase] using calm
    · rintro rfl errand deadline phase timed
      simp only [isUndisturbed, phase, timed, Bool.not_true, Bool.false_or] at calm
      cases receipt : (s.attempt errand).1 <;> simp_all
  · intro calm
    unfold isUndisturbed
    split
    · exact absurd rfl calm.owner
    · exact absurd rfl (calm.wire _)
    · split
      · simpa using calm.writes rfl _ _ ‹_›
      · rfl
    · split
      · rename_i errand deadline phase
        cases timed : errand.isTimed with
        | false => rfl
        | true =>
            obtain ⟨kept, due⟩ := calm.scheduler rfl errand deadline phase timed
            cases receipt : (s.attempt errand).1 <;> simp_all
      · rfl
    · rfl

instance (s : Session) (event : Event) : Decidable (s.Undisturbed event) :=
  decidable_of_iff _ (s.isUndisturbed_iff event)

/-- These bytes wait to be read, and the wire has not failed. -/
def Holds (s : Session) (limit : Nat) (buffer : List UInt8) : Prop :=
  ∃ state, s.transport.inbound = .bytes limit buffer state ∧ ∀ failure, state ≠ .broken failure

/-! ### What the reader hands over -/

section Emits

variable {s s' : Session}

theorem emits_failReader (s u : Session) (reason : Ending) :
    s.emits (u.failReader reason) = s.emits u := by
  simp [emits, failReader, trigger]

theorem emits_proceed (s u : Session) (handled : Conversation × Progress) :
    s.emits (u.proceed handled) = s.emits u := by
  obtain ⟨conversation, progress⟩ := handled
  cases progress with
  | done outcome =>
      cases outcome with
      | ok => rfl
      | error failure => exact emits_failReader s _ _
  | handing errand => rfl

theorem emits_afterRead (s u : Session) (outcome : ReadOutcome) :
    s.emits (u.afterRead outcome) = s.emits u := by
  cases outcome with
  | message message =>
      rw [afterRead_message]
      exact emits_proceed s u _
  | ended => exact emits_failReader s u _
  | failed failure => exact emits_failReader s u _

theorem emits_self (s : Session) : s.emits s = [] := by simp [emits]

/-- An attempt hands over what the errand is about, or nothing. -/
theorem emits_attempt (s : Session) (errand : Errand) :
    s.emits (s.attempt errand).2 =
      if (s.attempt errand).1 = .accepted then [errand.emission s.conversation] else [] := by
  cases errand with
  | cancel ref =>
      simp only [emits, attempt, Mailbox.gained_self, Mailbox.gained_send]
      split <;> simp [Errand.emission, *]
  | deliver block =>
      simp only [emits, attempt, Mailbox.gained_self, Mailbox.gained_send]
      split <;> simp [Errand.emission, Delivery.isBlock, *]
  | announce interested thenRequest =>
      simp only [emits, attempt, Mailbox.gained_self, Mailbox.gained_send]
      split <;> simp [Errand.emission, *]
  | request remote =>
      simp only [emits, attempt, Mailbox.gained_self, Mailbox.gained_send]
      split <;> simp [Errand.emission, *]

theorem emits_stopReader (s : Session) : s.emits s.stopReader = [] := by
  simp [emits, stopReader]

theorem emits_callMove {teardown : Teardown} {number now : Nat}
    (move : s.teardown.CallMove number now teardown) : s.emits { s with teardown } = [] := by
  have none : (s.teardown.deliveries.gained teardown.deliveries).filter (·.isBlock) = [] := by
    refine List.filter_eq_nil_iff.mpr ?_
    intro delivery inside
    rw [move.delivered delivery inside]
    exact nofun
  simp [emits, none]

end Emits

/-! ### What waits to be read -/

section Holds

variable {s s' : Session} {limit : Nat} {buffer : List UInt8}

theorem Holds.congr (holds : s.Holds limit buffer)
    (inbound : s'.transport.inbound = s.transport.inbound) : s'.Holds limit buffer := by
  unfold Holds
  rw [inbound]
  exact holds

/-- As long as the wire does not fail, the bytes that wait stay there for the reader. -/
theorem Holds.after {event : Event} (holds : s.Holds limit buffer)
    (surroundings : event.isTask = false)
    (sound : ∀ failure, event ≠ .remoteSends (.error failure)) :
    (s.after event).Holds limit (buffer ++ s.arrived event) ∧
      (s.transport.inbound.isOver = true →
        s.arrived event = [] ∧ (s.after event).transport.inbound.isOver = true) := by
  obtain ⟨state, inbound, unbroken⟩ := holds
  obtain ⟨state', moved, kept, breaks⟩ := inbound_after inbound surroundings
  refine ⟨⟨state', moved, ?_⟩, ?_⟩
  · intro failure broken
    rcases breaks failure broken with before | now
    · exact unbroken failure before
    · exact sound failure now
  · intro halted
    have halted' : state ≠ .flowing := by simpa [inbound, Inbound.isOver] using halted
    obtain ⟨silent, rfl⟩ := kept halted'
    exact ⟨silent, by simpa [moved, Inbound.isOver] using halted'⟩

end Holds

/-! ### The writer of an undisturbed connection -/

section Writer

variable {s s' : Session}

/-- The writer does not call for the end. -/
theorem WriterMove.alive (move : WriterMove s s') (flow : s.Flowing)
    (undisturbed : s.Undisturbed (.task .writer)) (up : s.writer.isBringingUp = false)
    (alive : s.teardown.hasFired = false) : s'.teardown.hasFired = false := by
  cases move with
  | abort phase =>
      rw [up] at phase
      contradiction
  | failed phase cause =>
      obtain ⟨unbroken, timely⟩ := undisturbed.writes rfl _ _ phase
      rcases cause with broken | ⟨shut, due⟩
      · exact absurd unbroken broken
      · rw [shut, due] at timely
        simp at timely
  | dryUp phase unfired empty stopped =>
      have running := flow.isRunning (not_isEnding unfired (by simp [phase]))
      rw [stopped] at running
      contradiction
  | calling phase move => exact move.hasFired_eq.trans alive
  | @released call leaving => cases leaving <;> exact alive
  | _ => exact alive

end Writer

/-! ### Along the bytes -/

/-- A connection to a remote that has named itself, and of which nothing else is known. -/
def acquainted (addr : String) (pieces : UInt64) (peerId : PeerId) : Conversation :=
  (Conversation.start addr pieces 0).setRemoteId peerId

theorem acquainted_sized (addr : String) (pieces : UInt64) (peerId : PeerId) :
    (acquainted addr pieces peerId).Sized := rfl

/-- Where a connection stands on its way along the bytes that have arrived, and what its
reader has handed over by then. -/
inductive Course (limit : Nat) (addr : String) (pieces : UInt64) (arrived : List UInt8)
    (emitted : List Emission) (s : Session) : Prop where
  /-- The wire is being brought up. -/
  | raising (phase : s.writer.isBringingUp = true) (absent : s.reader = .absent)
      (alive : s.teardown.hasFired = false) (holds : s.Holds limit arrived)
      (conversation : s.conversation = .start addr pieces 0) (silent : emitted = [])
  /-- The connection was never established, and never will be. -/
  | missed (phase : s.writer.isEnding = true) (absent : s.reader = .absent)
  | announcing {bits : List UInt8} {deadline : Option Nat} {peerId : PeerId}
      (phase : s.writer = .writing (.announce bits) deadline) (absent : s.reader = .absent)
      (alive : s.teardown.hasFired = false) (long : Handshake.size ≤ arrived.length)
      (holds : s.Holds limit (arrived.drop Handshake.size))
      (conversation : s.conversation = acquainted addr pieces peerId) (silent : emitted = [])
      (published : s.status = s.conversation.status)
  | reading {peerId : PeerId} {messages : List Message} {buffer : List UInt8}
      (phase : s.reader = .reading none) (alive : s.teardown.hasFired = false)
      (long : Handshake.size ≤ arrived.length) (holds : s.Holds limit buffer)
      (leads : Stream.Leads limit pieces (arrived.drop Handshake.size) messages buffer)
      (handled : (acquainted addr pieces peerId).Handled messages s.conversation emitted)
      (published : s.status = s.conversation.status)
  | handling {peerId : PeerId} {messages : List Message} {message : Message}
      {buffer : List UInt8} {errand : Errand} {deadline : Option Nat} {c : Conversation}
      {earlier handed : List Emission} (phase : s.reader = .handling errand deadline)
      (alive : s.teardown.hasFired = false) (untimed : errand.isTimed = false → deadline = none)
      (long : Handshake.size ≤ arrived.length) (holds : s.Holds limit buffer)
      (leads : Stream.Leads limit pieces (arrived.drop Handshake.size) (messages ++ [message])
        buffer)
      (handled : (acquainted addr pieces peerId).Handled messages c earlier)
      (accepted : message.rejection? pieces = none)
      (handling : c.Handling message (s.conversation, .handing errand) handed)
      (split : emitted = earlier ++ handed)
  /-- The reader has called for the end, for the reason that the walk gives. -/
  | halted {peerId : PeerId} {messages : List Message} {reason : Ending} {buffer : List UInt8}
      (phase : s.reader.isEnding = true) (long : Handshake.size ≤ arrived.length)
      (holds : s.Holds limit buffer)
      (stopped : ∀ more, (s.transport.inbound.isOver = true → more = []) →
        Stream.walk limit pieces (arrived.drop Handshake.size ++ more) = (messages, reason))
      (first : s.teardown.ending? = some reason)
      (handled : (acquainted addr pieces peerId).Handled messages s.conversation emitted)
      (published : s.status = s.conversation.status)

namespace Course

variable {s s' : Session} {event : Event} {limit : Nat} {addr : String} {pieces : UInt64}
  {arrived : List UInt8} {emitted : List Emission}

/-- Nothing that the course depends on has changed. -/
theorem still (course : Course limit addr pieces arrived emitted s)
    (writer : s.reader = .absent → s'.writer = s.writer) (reader : s'.reader = s.reader)
    (conversation : s'.conversation = s.conversation) (status : s'.status = s.status)
    (inbound : s'.transport.inbound = s.transport.inbound)
    (fired : s'.teardown.hasFired = s.teardown.hasFired)
    (first : ∀ reason, s.teardown.ending? = some reason → s'.teardown.ending? = some reason) :
    Course limit addr pieces arrived emitted s' := by
  cases course with
  | raising phase absent alive holds start silent =>
      exact .raising (by rw [writer absent]; exact phase) (reader.trans absent)
        (fired.trans alive) (holds.congr inbound) (conversation.trans start) silent
  | missed phase absent =>
      exact .missed (by rw [writer absent]; exact phase) (reader.trans absent)
  | announcing phase absent alive long holds acquaintance silent published =>
      exact .announcing ((writer absent).trans phase) (reader.trans absent) (fired.trans alive) long
        (holds.congr inbound) (conversation.trans acquaintance) silent
        (by rw [status, conversation]; exact published)
  | reading phase alive long holds leads handled published =>
      exact .reading (reader.trans phase) (fired.trans alive) long (holds.congr inbound) leads
        (by rw [conversation]; exact handled) (by rw [status, conversation]; exact published)
  | handling phase alive untimed long holds leads handled accepted handling split =>
      exact .handling (reader.trans phase) (fired.trans alive) untimed long (holds.congr inbound)
        leads handled accepted (by rw [conversation]; exact handling) split
  | halted phase long holds stopped ended handled published =>
      exact .halted (by rw [reader]; exact phase) long (holds.congr inbound)
        (by rw [inbound]; exact stopped) (first _ ended) (by rw [conversation]; exact handled)
        (by rw [status, conversation]; exact published)

/-- Bytes may arrive, and what others do to the mailboxes is no matter. -/
theorem surroundings (course : Course limit addr pieces arrived emitted s)
    (task : event.isTask = false) (sound : ∀ failure, event ≠ .remoteSends (.error failure))
    (frame : Outside s (s.after event)) :
    Course limit addr pieces (arrived ++ s.arrived event) emitted (s.after event) := by
  have fired : (s.after event).teardown.hasFired = s.teardown.hasFired := by rw [frame.teardown]
  have first : (s.after event).teardown.ending? = s.teardown.ending? := by rw [frame.teardown]; rfl
  have later : Handshake.size ≤ arrived.length →
      Handshake.size ≤ (arrived ++ s.arrived event).length := by
    intro long
    rw [List.length_append]
    omega
  cases course with
  | raising phase absent alive holds start silent =>
      exact .raising (by rw [frame.writer]; exact phase) (frame.reader.trans absent)
        (fired.trans alive) (holds.after task sound).1 (frame.conversation.trans start) silent
  | missed phase absent =>
      exact .missed (by rw [frame.writer]; exact phase) (frame.reader.trans absent)
  | announcing phase absent alive long holds acquaintance silent published =>
      refine .announcing (frame.writer.trans phase) (frame.reader.trans absent)
        (fired.trans alive) (later long) ?_ (frame.conversation.trans acquaintance) silent
        (by rw [frame.status, frame.conversation]; exact published)
      rw [List.drop_append_of_le_length long]
      exact (holds.after task sound).1
  | reading phase alive long holds leads handled published =>
      refine .reading (frame.reader.trans phase) (fired.trans alive) (later long)
        (holds.after task sound).1 ?_ (by rw [frame.conversation]; exact handled)
        (by rw [frame.status, frame.conversation]; exact published)
      rw [List.drop_append_of_le_length long]
      exact leads.arrive _
  | handling phase alive untimed long holds leads handled accepted handling split =>
      refine .handling (frame.reader.trans phase) (fired.trans alive) untimed (later long)
        (holds.after task sound).1 ?_ handled accepted (by rw [frame.conversation]; exact handling)
        split
      rw [List.drop_append_of_le_length long]
      exact leads.arrive _
  | halted phase long holds stopped ended handled published =>
      obtain ⟨held, closed⟩ := holds.after task sound
      refine .halted (by rw [frame.reader]; exact phase) (later long) held ?_
        (first.trans ended) (by rw [frame.conversation]; exact handled)
        (by rw [frame.status, frame.conversation]; exact published)
      intro more none
      rw [List.drop_append_of_le_length long, List.append_assoc]
      refine stopped _ ?_
      intro shut
      rw [(closed shut).1, none (closed shut).2]
      rfl

/-- The writer brings the wire up, takes the remote's handshake off its front and starts
the reader; what it does later is no matter. -/
theorem writer (course : Course limit addr pieces arrived emitted s) (life : s.Lifecycle)
    (flow : s.Flowing) (undisturbed : s.Undisturbed (.task .writer))
    (dialed : s.transport.adopted = none) (patient : s.settings.readTimeout = none)
    (move : WriterMove s s') : Course limit addr pieces arrived emitted s' := by
  have started : s.reader ≠ .absent → Course limit addr pieces arrived emitted s' := by
    intro present
    have up := life.isBeforeReader_eq_false present
    have raised : s.writer.isBringingUp = false := by
      by_contra bringing
      rw [WriterPhase.isBeforeReader_of_isBringingUp (by simpa using bringing)] at up
      contradiction
    obtain ⟨reader, conversation, status, inbound⟩ := move.apart up
    have fired : s'.teardown.hasFired = s.teardown.hasFired := by
      cases torn : s.teardown.hasFired with
      | true => exact (Move.writer move).teardown_turn.later.fired torn
      | false => exact move.alive flow undisturbed raised torn
    exact course.still (fun absent => absurd absent present) reader conversation status inbound
      fired fun _ => (Move.writer move).teardown_turn.ending?
  cases course with
  | raising phase absent alive holds start silent =>
      cases move with
      | cut => exact .missed rfl absent
      | abort => exact .missed rfl absent
      | dial => exact .raising rfl absent alive holds start silent
      | connected => exact .raising rfl absent alive holds start silent
      | greeted => exact .raising rfl absent alive holds start silent
      | adopt _ _ _ adopted =>
          rw [dialed] at adopted
          contradiction
      | @welcome deadline peerId rest _ _ received =>
          obtain ⟨state, inbound, unbroken⟩ := holds
          have waiting : s.transport.inbound.waiting = arrived := by rw [inbound]; rfl
          rw [waiting] at received
          obtain ⟨opens, rfl⟩ := Handshake.receive_eq_accepted_iff.mp received
          have named : s.conversation.setRemoteId peerId = acquainted addr pieces peerId := by
            rw [start]
            rfl
          refine .announcing rfl absent alive opens.whole ⟨state, ?_, unbroken⟩ named silent rfl
          simp [establish, publish, beginWrite, inbound, Inbound.leaving]
      | _ => simp_all [WriterPhase.isBringingUp]
  | missed phase absent =>
      cases move with
      | @released call leaving => cases leaving <;> exact .missed rfl absent
      | calling => exact .missed phase absent
      | closed => exact .missed rfl absent
      | joined => exact .missed rfl absent
      | cut bringing =>
          rw [WriterPhase.not_isEnding bringing] at phase
          contradiction
      | abort bringing =>
          rw [WriterPhase.not_isEnding bringing] at phase
          contradiction
      | _ => simp_all [WriterPhase.isEnding]
  | @announcing bits deadline peerId phase absent alive long holds acquaintance silent published =>
      cases move with
      | announced =>
          have untimed : s.readDeadline = none := by simp [readDeadline, dialed, patient]
          have nothing : (acquainted addr pieces peerId).Handled [] s.conversation emitted := by
            rw [silent, acquaintance]
            exact .none
          exact .reading (congrArg ReaderPhase.reading untimed) alive long (holds.congr rfl)
            (.refl _ _ _) nothing published
      | failed other cause =>
          obtain ⟨unbroken, timely⟩ := undisturbed.writes rfl _ _ other
          rcases cause with broken | ⟨shut, due⟩
          · exact absurd unbroken broken
          · rw [shut, due] at timely
            simp at timely
      | _ => simp_all [WriterPhase.isBringingUp, WriteJob.isAnnounce]
  | reading phase => exact started (by simp [phase])
  | handling phase => exact started (by simp [phase])
  | halted phase =>
      refine started ?_
      intro absent
      rw [absent] at phase
      contradiction

/-- The reader goes on with the handling of a message. -/
theorem proceed {peerId : PeerId} {messages : List Message} {message : Message}
    {buffer : List UInt8} {c : Conversation} {stand : Conversation × Progress}
    {earlier handed : List Emission} {u : Session} (alive : u.teardown.hasFired = false)
    (untimed : u.readDeadline = none) (long : Handshake.size ≤ arrived.length)
    (holds : u.Holds limit buffer)
    (leads : Stream.Leads limit pieces (arrived.drop Handshake.size) (messages ++ [message])
      buffer)
    (handled : (acquainted addr pieces peerId).Handled messages c earlier)
    (accepted : message.rejection? pieces = none)
    (handling : c.Handling message stand handed) :
    Course limit addr pieces arrived (earlier ++ handed) (u.proceed stand) := by
  obtain ⟨same, sized, _⟩ := handled.tells (acquainted_sized addr pieces peerId)
  have here : message.rejection? c.pieces = none := by
    rw [same]
    exact accepted
  obtain ⟨c', progress⟩ := stand
  rcases (handling.succeeds sized here).1 with done | ⟨errand, handing⟩
  · dsimp only at done
    subst done
    exact .reading (congrArg ReaderPhase.reading untimed) alive long (holds.congr rfl) leads
      (handled.next accepted handling) rfl
  · dsimp only at handing
    subst handing
    exact .handling rfl alive (fun free => by simp [free]) long (holds.congr rfl) leads handled
      accepted handling rfl

/-- The reader calls for the end where the walk stops. -/
theorem fail {peerId : PeerId} {messages : List Message} {buffer : List UInt8} {reason : Ending}
    {u : Session} (one : u.teardown.OneShot) (alive : u.teardown.hasFired = false)
    (long : Handshake.size ≤ arrived.length) (holds : u.Holds limit buffer)
    (stopped : ∀ more, (u.transport.inbound.isOver = true → more = []) →
      Stream.walk limit pieces (arrived.drop Handshake.size ++ more) = (messages, reason))
    (handled : (acquainted addr pieces peerId).Handled messages u.conversation emitted)
    (published : u.status = u.conversation.status) :
    Course limit addr pieces arrived emitted (u.failReader reason) :=
  .halted rfl long (holds.congr rfl) stopped (one.ending?_trigger alive reason u.now) handled
    published

/-- The reader takes up what a read gives. -/
theorem read {peerId : PeerId} {messages : List Message} {buffer : List UInt8}
    {outcome : ReadOutcome} {inbound : Inbound} (one : s.teardown.OneShot)
    (untimed : s.readDeadline = none) (alive : s.teardown.hasFired = false)
    (long : Handshake.size ≤ arrived.length) (holds : s.Holds limit buffer)
    (leads : Stream.Leads limit pieces (arrived.drop Handshake.size) messages buffer)
    (handled : (acquainted addr pieces peerId).Handled messages s.conversation emitted)
    (published : s.status = s.conversation.status)
    (polled : s.transport.inbound.poll = some (outcome, inbound)) :
    Course limit addr pieces arrived emitted
      (({ s with transport := { s.transport with inbound } } : Session).afterRead outcome) := by
  obtain ⟨state, waiting, unbroken⟩ := holds
  obtain ⟨same, sized, _⟩ := handled.tells (acquainted_sized addr pieces peerId)
  rw [waiting] at polled
  unfold Inbound.poll at polled
  dsimp only at polled
  cases front : Stream.next limit buffer with
  | message message rest =>
      rw [front] at polled
      cases polled
      rw [afterRead_message]
      cases verdict : message.rejection? pieces with
      | none =>
          have moved : Course limit addr pieces arrived (emitted ++ [])
              (({ s with transport := { s.transport with
                inbound := .bytes limit rest state } } : Session).proceed
                  (s.conversation.receive s.field s.now message)) :=
            .proceed alive untimed long ⟨state, rfl, unbroken⟩ (leads.read front verdict) handled
              verdict (.start s.field s.now)
          rwa [List.append_nil] at moved
      | some fault =>
          have here : message.rejection? s.conversation.pieces = some fault := by
            rw [same]
            exact verdict
          have unchanged : s.conversation.receive s.field s.now message =
              (s.conversation, .fail fault) := Conversation.receive_of_rejected sized here
          dsimp only
          rw [unchanged]
          exact .fail one alive long ⟨state, rfl, unbroken⟩
            (fun more _ => leads.reject front verdict more) handled rfl
  | refused failure =>
      rw [front] at polled
      cases polled
      have reason : Ending.ofReadFailure failure = .protocol ("decode: " ++ failure.message) := by
        rw [Ending.ofReadFailure, Stream.not_isTransport_of_refused front]
        rfl
      dsimp only [afterRead]
      rw [reason]
      exact .fail one alive long ⟨state, rfl, unbroken⟩
        (fun more _ => leads.refuse front more) handled published
  | more room =>
      rw [front] at polled
      have ended := leads.finish front
      cases state with
      | flowing => contradiction
      | broken failure => exact absurd rfl (unbroken failure)
      | ended =>
          have last : ∀ reason, (if buffer.isEmpty then Ending.streamClosed
              else .io "read: bytes remaining on stream") = reason →
              ∀ more, ((Inbound.bytes limit buffer .ended).isOver = true → more = []) →
              Stream.walk limit pieces (arrived.drop Handshake.size ++ more) =
                (messages, reason) := by
            intro reason same more none
            rw [none rfl, List.append_nil, ended, same]
          dsimp only at polled
          split at polled
          · rename_i empty
            cases polled
            exact .fail one alive long ⟨.ended, rfl, unbroken⟩ (last _ (if_pos empty)) handled
              published
          · rename_i full
            cases polled
            exact .fail one alive long ⟨.ended, rfl, unbroken⟩ (last _ (if_neg full)) handled
              published

/-- What is handed over is neither turned away nor given up. -/
theorem not_turned_away {errand : Errand} {deadline : Option Nat} (flow : s.Flowing)
    (undisturbed : s.Undisturbed (.task .reader)) (sound : s.writer ≠ .crashed)
    (phase : s.reader = .handling errand deadline) (alive : s.teardown.hasFired = false)
    (untimed : errand.isTimed = false → deadline = none) :
    (s.attempt errand).1 ≠ .closed ∧
      ((s.attempt errand).1 = .full → s.isDue deadline = false) := by
  have running := flow.isRunning (not_isEnding alive sound)
  obtain ⟨incoming, cancels⟩ := flow.inputs running
  have patient : errand.isTimed = false → s.isDue deadline = false := by
    intro free
    rw [untimed free]
    rfl
  cases errand with
  | cancel ref =>
      refine ⟨?_, fun _ => patient rfl⟩
      intro closed
      rw [(Mailbox.send_eq_closed_iff _ _ _).mp closed] at cancels
      contradiction
  | announce interested thenRequest =>
      refine ⟨?_, fun _ => patient rfl⟩
      intro closed
      rw [(Mailbox.send_eq_closed_iff _ _ _).mp closed] at incoming
      contradiction
  | deliver block => exact undisturbed.scheduler rfl _ _ phase rfl
  | request remote => exact undisturbed.scheduler rfl _ _ phase rfl

/-- The reader takes a step along the bytes, or stays where the walk stops. -/
theorem reader (course : Course limit addr pieces arrived emitted s) (life : s.Lifecycle)
    (flow : s.Flowing) (undisturbed : s.Undisturbed (.task .reader)) (sound : s.writer ≠ .crashed)
    (patient : s.readDeadline = none) (move : ReaderMove s s') :
    Course limit addr pieces arrived (emitted ++ s.emits s') s' := by
  cases course with
  | raising phase absent => exact absurd absent move.started.1
  | missed phase absent => exact absurd absent move.started.1
  | announcing phase absent => exact absurd absent move.started.1
  | reading phase alive long holds leads handled published =>
      cases move with
      | cut _ fired =>
          rw [alive] at fired
          contradiction
      | @read _ outcome inbound _ _ polled =>
          have silent : s.emits (({ s with transport := { s.transport with inbound } } :
              Session).afterRead outcome) = [] := by
            rw [emits_afterRead]
            exact emits_self s
          rw [silent, List.append_nil]
          exact .read life.oneShot patient alive long holds leads handled published polled
      | starved other _ due =>
          rw [phase] at other
          cases other
          contradiction
      | _ => simp_all
  | @handling peerId messages message buffer errand deadline c earlier handed phase alive untimed
      long holds leads handled accepted handling split =>
      obtain ⟨open_, timely⟩ := not_turned_away flow undisturbed sound phase alive untimed
      cases move with
      | cut _ fired =>
          rw [alive] at fired
          contradiction
      | @handed errand' _ other _ receipt =>
          rw [phase] at other
          cases other
          have went : s.emits ((s.attempt errand).2.resume errand .accepted) =
              [errand.emission s.conversation] := by
            rw [Session.resume, emits_proceed, emits_attempt, if_pos receipt]
          have further : c.Handling message
              ((s.attempt errand).2.conversation.resume (s.attempt errand).2.field errand .accepted)
              (handed ++ [errand.emission s.conversation]) := by
            rw [attempt_conversation]
            exact .handOver _ handling
          have unhurried : (s.attempt errand).2.readDeadline = none := by
            cases errand <;> exact patient
          rw [went, split, List.append_assoc]
          exact .proceed (by simpa using alive) unhurried long (holds.congr (by simp)) leads handled
            accepted further
      | turnedAway other _ receipt =>
          rw [phase] at other
          cases other
          exact absurd receipt open_
      | expired other _ receipt due =>
          rw [phase] at other
          cases other
          rw [timely receipt] at due
          contradiction
      | @queued errand' _ other _ receipt =>
          rw [phase] at other
          cases other
          have silent : s.emits (s.attempt errand).2 = [] := by
            rw [emits_attempt, receipt]
            rfl
          rw [silent, List.append_nil, split]
          exact .handling (by simpa using phase) (by simpa using alive) untimed long
            (holds.congr (by simp)) leads handled accepted (by simpa using handling) rfl
      | _ => simp_all
  | halted phase long holds stopped ended handled published =>
      cases move with
      | released own halted =>
          rw [emits_stopReader, List.append_nil]
          exact .halted rfl long (holds.congr rfl) stopped ended handled published
      | calling own move =>
          rw [emits_callMove move, List.append_nil]
          exact .halted phase long (holds.congr rfl) stopped
            ((Move.reader (.calling own move)).teardown_turn.ending? ended) handled published
      | cut atWork =>
          rw [ReaderPhase.not_isEnding atWork] at phase
          contradiction
      | _ => simp_all [ReaderPhase.isEnding]

/-- An event that does not disturb the connection keeps it on its course. -/
theorem after (course : Course limit addr pieces arrived emitted s) (life : s.Lifecycle)
    (flow : s.Flowing) (undisturbed : s.Undisturbed event) (sound : s.writer ≠ .crashed)
    (dialed : s.transport.adopted = none) (patient : s.settings.readTimeout = none) :
    Course limit addr pieces (arrived ++ s.arrived event) (emitted ++ s.emitted event)
      (s.after event) := by
  have quiet : ∀ u : Session, Course limit addr pieces arrived emitted u →
      Course limit addr pieces (arrived ++ []) (emitted ++ []) u := by
    intro u same
    rwa [List.append_nil, List.append_nil]
  have move := after_move s event
  obtain ⟨s', moved⟩ : ∃ s', s.after event = s' := ⟨_, rfl⟩
  have turn := move.teardown_turn
  rw [moved] at move turn
  cases move with
  | @wait task stuck =>
      have silent : s.emitted (.task task) = [] := by
        cases task with
        | reader =>
            unfold Session.emitted
            rw [moved]
            exact emits_self s
        | _ => rfl
      rw [silent, moved]
      exact quiet s course
  | outbox =>
      rw [moved]
      exact quiet _ (course.still (fun _ => rfl) rfl rfl rfl rfl rfl fun _ first => first)
  | writer move =>
      rw [moved]
      exact quiet _ (course.writer life flow undisturbed dialed patient move)
  | reader move =>
      have unhurried : s.readDeadline = none := by simp [readDeadline, dialed, patient]
      have handed : s.emitted (.task .reader) = s.emits s' := by
        unfold Session.emitted
        rw [moved]
      have bare : arrived ++ s.arrived (.task .reader) = arrived := List.append_nil _
      rw [handed, bare, moved]
      exact course.reader life flow undisturbed sound unhurried move
  | call made move =>
      rw [moved]
      exact quiet _ (course.still (fun _ => rfl) rfl rfl rfl rfl move.hasFired_eq
        fun _ => turn.ending?)
  | shutdown => exact absurd rfl undisturbed.owner
  | @abandon number made =>
      rw [moved]
      exact quiet _ (course.still (fun _ => rfl) rfl rfl rfl rfl
        (Teardown.hasFired_abandon _ number) fun _ => turn.ending?)
  | outside surroundings frame silent =>
      have silent : s.emitted event = [] := by
        cases event with
        | task task => contradiction
        | _ => rfl
      rw [← moved] at frame
      rw [silent, List.append_nil]
      exact course.surroundings surroundings undisturbed.wire frame

end Course

/-! ### Any history -/

section Runs

variable {s : Session} (history : List Event)

/-- The connection stays on its course along everything that has arrived. -/
theorem course_run {limit : Nat} {addr : String} {pieces : UInt64} (life : s.Lifecycle)
    (flow : s.Flowing) (fresh : Course limit addr pieces [] [] s)
    (dialed : s.transport.adopted = none) (patient : s.settings.readTimeout = none)
    (undisturbed : Along Undisturbed s history) (sound : (s.run history).writer ≠ .crashed) :
    Course limit addr pieces (s.arrivals history) (s.emissions history) (s.run history) := by
  induction history using List.reverseRecOn with
  | nil => exact fresh
  | append_singleton past event ih =>
      obtain ⟨before, now⟩ := (along_concat _ _ _ _).mp undisturbed
      rw [run_concat] at sound
      have steady : (s.run past).writer ≠ .crashed := fun crashed =>
        sound ((after_move _ event).crashed crashed)
      obtain ⟨settings, adopted⟩ := settings_run s past
      have further := (ih before steady).after (life.run past) (flow.run life past) now steady
        (adopted.trans dialed) (settings ▸ patient)
      unfold arrivals emissions at further ⊢
      rwa [run_concat, observe_concat, observe_concat]

end Runs

/-- How a connection comes to its end: its reader takes its turns, and has all its work
behind it after so many of them. -/
structure GoesOn (s : Session) : Prop where
  turn : s.awaitsRoom = false → s.step .reader ≠ none
  /-- Without room the reader waits for the scheduler, or for others who stand ahead of it
  and to whom all the room is promised; or else the write queue can make room. -/
  room : s.awaitsRoom = true → s.awaitsScheduler = true ∨ s.step .outbox ≠ none ∨
    s.outbox.incoming.capacity ≤ s.outbox.incoming.line.idxOf .reader
  bound : ∀ further : List Event,
    4 * s.transport.inbound.waiting.length + 4 ≤ (observe stride s further).length →
      (s.run further).teardown.hasFired = true

/-- A reader whose wire has ended goes on. -/
theorem Course.goes_on {s : Session} {limit : Nat} {addr : String} {pieces : UInt64}
    {arrived : List UInt8} {emitted : List Emission}
    (course : Course limit addr pieces arrived emitted s) (life : s.Lifecycle) (flow : s.Flowing)
    (own : s.Uncontested) (sound : s.writer ≠ .crashed) (present : s.reader ≠ .absent)
    (alive : s.teardown.hasFired = false)
    (ended : s.transport.inbound.hasEnded = true) : s.GoesOn := by
  have goes : ∀ buffer, s.Holds limit buffer → s.reader.isAtWork = true → s.GoesOn := by
    rintro buffer ⟨state, inbound, unbroken⟩ atWork
    have last : state = .ended := by simpa [inbound, Inbound.hasEnded] using ended
    have holding : s.Holding limit buffer := by rw [Holding, inbound, last]
    refine ⟨holding.step_reader atWork, room_of_awaitsRoom flow own sound alive, ?_⟩
    intro further long
    rw [inbound, Inbound.waiting] at long
    exact holding.hasFired_run life present long
  cases course with
  | raising phase absent => exact absurd absent present
  | missed phase absent => exact absurd absent present
  | announcing phase absent => exact absurd absent present
  | reading phase _ long holds => exact goes _ holds (by rw [phase]; rfl)
  | handling phase _ untimed long holds => exact goes _ holds (by rw [phase]; rfl)
  | halted phase =>
      have fired := life.reader phase
      rw [alive] at fired
      contradiction

/-- The bytes that a remote sends after its handshake decide how the connection ends, and
what comes of it. The wire is dialed and established, reads may take as long as they take,
and nothing else disturbs the connection; no task crashes.

Once the connection is torn down, its reason is the one that the walk along the bytes
gives, and its flags, what it knows of the remote and all that its reader has handed over
come from the messages that the walk acts on, and from nothing else. Until then, if the
remote has ended its side, the connection goes on to its end. -/
theorem ends_as_walked (settings : Settings) (identity : Identity) (addr : String)
    (pieces : UInt64) (field : Bitfield) (capacities : Capacities) (dial : Dial)
    (history : List Event) (patient : settings.readTimeout = none)
    (undisturbed : Along Undisturbed (Session.start settings identity addr pieces field capacities
      (.toDial settings.frameLimit dial)) history)
    (sound : ((Session.start settings identity addr pieces field capacities
      (.toDial settings.frameLimit dial)).run history).writer ≠ .crashed)
    (established : ((Session.start settings identity addr pieces field capacities
      (.toDial settings.frameLimit dial)).run history).reader ≠ .absent) :
    let s := Session.start settings identity addr pieces field capacities
      (.toDial settings.frameLimit dial)
    let now := s.run history
    let walked := Stream.walk settings.frameLimit pieces
      ((s.arrivals history).drop Handshake.size)
    (now.teardown.hasFired = true →
      now.teardown.ending? = some walked.2 ∧
        now.conversation.standing.aboutRemote =
          (walked.1.foldl Standing.hear { remote := .empty pieces }).aboutRemote ∧
        now.status = now.conversation.status ∧
        ∃ peerId, (acquainted addr pieces peerId).Handled walked.1 now.conversation
          (s.emissions history)) ∧
      (now.teardown.hasFired = false → now.transport.inbound.hasEnded = true → now.GoesOn) := by
  intro s now walked
  have life : s.Lifecycle := .start settings identity addr pieces field capacities _
  have flow : s.Flowing := .start settings identity addr pieces field capacities _
  have fresh : Course settings.frameLimit addr pieces [] [] s :=
    .raising rfl rfl rfl ⟨.flowing, rfl, nofun⟩ rfl rfl
  have course := course_run history life flow fresh rfl patient undisturbed sound
  have own : s.Uncontested := .start settings identity addr pieces field capacities _
  refine ⟨?_, course.goes_on (life.run history) (flow.run life history)
    (own.run history) sound established⟩
  intro fired
  cases course with
  | raising phase absent => exact absurd absent established
  | missed phase absent => exact absurd absent established
  | announcing phase absent => exact absurd absent established
  | reading phase alive =>
      rw [alive] at fired
      contradiction
  | handling phase alive =>
      rw [alive] at fired
      contradiction
  | @halted peerId messages reason buffer phase long holds stopped first handled published =>
      have whole : walked = (messages, reason) := by
        have stop := stopped [] fun _ => rfl
        rwa [List.append_nil] at stop
      rw [whole]
      exact ⟨first, (handled.tells (acquainted_sized addr pieces peerId)).2.2, published, peerId,
        handled⟩

/-- An unknown message, behind one that is acted on and before one that is not. -/
theorem ends_as_walked_unknown :
    let s := Session.start .default default "10.0.0.7:6881" 2 (.empty 2) ⟨1, 4, 4⟩
      (.toDial Settings.default.frameLimit .connected)
    let history : List Event := [.task .writer, .task .writer, .task .writer,
      .remoteSendsBytes (19 :: Handshake.protocolName ++ List.replicate 48 0), .task .writer,
      .task .writer, .remoteSendsBytes [0, 0, 0, 1, 1, 0, 0], .task .reader,
      .remoteSendsBytes [0, 1, 20, 0, 0, 0, 1, 0], .task .reader, .remoteEnds]
    (s.run history).teardown.hasFired = true ∧
      (Stream.walk Settings.default.frameLimit 2 ((s.arrivals history).drop Handshake.size)).2 =
        .protocol "Unknown message id: 20" := by
  intro s history
  have undisturbed : Along Undisturbed s history := by decide +kernel
  have sound : (s.run history).writer ≠ .crashed := by decide +kernel
  have established : (s.run history).reader ≠ .absent := by decide +kernel
  have fired : (s.run history).teardown.hasFired = true := by decide +kernel
  have ending : (s.run history).teardown.ending? = some (.protocol "Unknown message id: 20") := by
    decide +kernel
  obtain ⟨walked, -⟩ := ends_as_walked .default default "10.0.0.7:6881" 2 (.empty 2) ⟨1, 4, 4⟩
    .connected history rfl undisturbed sound established
  simp only [s] at fired ending ⊢
  obtain ⟨reason, -⟩ := walked fired
  exact ⟨fired, Option.some.inj (reason.symm.trans ending)⟩

end Session

end PeerWire

import Mathlib.Data.List.Infix
import PeerWire.Proofs.Ledger
import PeerWire.Proofs.Session.Flow

/-!
What is written is what was queued, in order. The first message that the writer takes up
announces what we hold at that moment, and nothing is read before that message is
written. Everything written later, keep-alives aside, comes from the write queue: it is a
prefix of what was accepted there, in the order of acceptance, without the blocks that
were retracted. While nothing ends the connection, whatever was accepted and not
retracted is written, in the writer's hands, in the slot or queued.

A message passes three places on its way, and `Books` and `Writes` follow it: the ledger
is settled with the queue and the slot, and the writer's jobs with what it has written.
-/

namespace PeerWire

/-- What the writer is writing. -/
def WriterPhase.job? : WriterPhase → Option WriteJob
  | .writing job _ => some job
  | _ => none

@[simp] theorem WriterPhase.job?_writing (job : WriteJob) (deadline : Option Nat) :
    (WriterPhase.writing job deadline).job? = some job := rfl

/-- Nothing is written before the wire is up. -/
theorem WriterPhase.job?_of_isBringingUp {phase : WriterPhase}
    (bringing : phase.isBringingUp = true) : phase.job? = none := by
  cases phase <;> first | rfl | contradiction

/-- The message from the outbox that a job writes. -/
def WriteJob.relayed? : WriteJob → Option Message
  | .relay message => some message
  | .announce _ | .keepAlive => none

namespace Session

/-! ### What can be seen -/

/-- The messages that the write queue accepts between two states, from whomever. -/
def enqueued (s s' : Session) : List Message :=
  s.outbox.incoming.gained s'.outbox.incoming

/-- The job that the writer takes up between two states, with what we hold then. -/
def begins (s s' : Session) : List (WriteJob × Bitfield) :=
  if s.writer.job?.isSome then [] else (s'.writer.job?.map (·, s.field)).toList

/-- The messages written between two states. -/
def writes (s s' : Session) : List Message :=
  s'.transport.outbound.written.drop s.transport.outbound.written.length

/-- The message that is being written. -/
def inFlight (s : Session) : List Message :=
  (s.writer.job?.map (·.message)).toList

/-- The cancellation that is taken up at an event. -/
def retraction? (s : Session) : Event → Option BlockRef
  | .task .outbox => s.outbox.retraction? s.teardown.hasFired
  | _ => none

/-- The ledger along a history. -/
def ledger (s : Session) (history : List Event) : Ledger :=
  trace (fun ledger s event =>
    ledger.follow (s.retraction? event) s.outbox (s.after event).outbox) [] s history

/-- The jobs that the writer takes up along a history. -/
def jobs (s : Session) (history : List Event) : List (WriteJob × Bitfield) :=
  observe (fun s event => s.begins (s.after event)) s history

/-- The messages written along a history. -/
def written (s : Session) (history : List Event) : List Message :=
  observe (fun s event => s.writes (s.after event)) s history

/-- The messages that the write queue accepts along a history. -/
def queued (s : Session) (history : List Event) : List Message :=
  observe (fun s event => s.enqueued (s.after event)) s history

/-- The messages of the outbox that the jobs write. -/
def relays (jobs : List (WriteJob × Bitfield)) : List Message :=
  jobs.filterMap (·.1.relayed?)

/-! ### The writer's jobs -/

/-- The jobs taken up so far and the messages written so far agree with where the writer
and the reader stand. Nothing but `known` is known of the remote before the reader begins. -/
structure Writes (known : Standing) (jobs : List (WriteJob × Bitfield)) (written : List Message)
    (s : Session) : Prop where
  done : written <+: jobs.map (·.1.message)
  current : s.writer.isEnding = false → jobs.map (·.1.message) = written ++ s.inFlight
  opening : s.writer.isBringingUp = true → jobs = []
  first : jobs = [] ∨ ∃ field rest, jobs = (.announce field.bits, field) :: rest ∧
    ∀ job ∈ rest, job.1.isAnnounce = false
  begun : s.writer.isBringingUp = false → s.writer.isEnding = false → jobs ≠ []
  reading : s.reader ≠ .absent → written ≠ []
  unread : s.reader = .absent → s.conversation.standing = known

namespace Writes

variable {s s' : Session} {event : Event} {known : Standing}
  {jobs : List (WriteJob × Bitfield)} {written : List Message}

/-- Before the wire is up. -/
theorem fresh (bringing : s.writer.isBringingUp = true) (absent : s.reader = .absent) :
    Writes s.conversation.standing [] [] s where
  done := List.prefix_rfl
  current _ := by simp [inFlight, WriterPhase.job?_of_isBringingUp bringing]
  opening _ := rfl
  first := .inl rfl
  begun up := by simp [bringing] at up
  reading started := absurd absent started
  unread _ := rfl

/-- No job is taken up and nothing is written. -/
theorem quiet (writes : Writes known jobs written s) (begins : s.begins s' = [])
    (unwritten : s'.transport.outbound.written = s.transport.outbound.written)
    (writer : s'.writer = s.writer ∨ s'.writer.isEnding = true ∨
      s.writer.isBringingUp = true ∧ s'.writer.isBringingUp = true)
    (reader : s'.reader = .absent ↔ s.reader = .absent)
    (unread : s'.reader = .absent → s'.conversation.standing = s.conversation.standing) :
    Writes known (jobs ++ s.begins s') (written ++ s.writes s') s' := by
  have nothing : s.writes s' = [] := by simp [Session.writes, unwritten]
  rw [begins, nothing, List.append_nil, List.append_nil]
  refine ⟨writes.done, ?_, ?_, writes.first, ?_, ?_, ?_⟩
  · intro alive
    rcases writer with same | ending | ⟨before, after⟩
    · unfold inFlight
      rw [same]
      exact writes.current (same ▸ alive)
    · rw [ending] at alive
      contradiction
    · have empty := writes.opening before
      have prior := writes.done
      have idle := WriterPhase.job?_of_isBringingUp after
      rw [empty] at prior ⊢
      simpa [inFlight, idle, eq_comm] using prior
  · intro bringing
    rcases writer with same | ending | ⟨before, after⟩
    · exact writes.opening (same ▸ bringing)
    · rw [WriterPhase.not_isEnding bringing] at ending
      contradiction
    · exact writes.opening before
  · intro up alive
    rcases writer with same | ending | ⟨before, after⟩
    · exact writes.begun (same ▸ up) (same ▸ alive)
    · rw [ending] at alive
      contradiction
    · rw [after] at up
      contradiction
  · exact fun started => writes.reading (fun absent => started (reader.mpr absent))
  · intro absent
    rw [unread absent]
    exact writes.unread (reader.mp absent)

/-- A job is taken up: the announcement first, and no announcement later. -/
theorem begin {job : WriteJob} {deadline : Option Nat} (writes : Writes known jobs written s)
    (free : s.writer.job? = none) (alive : s.writer.isEnding = false)
    (writer : s'.writer = .writing job deadline)
    (unwritten : s'.transport.outbound.written = s.transport.outbound.written)
    (fits : s.writer.isBringingUp = true ∧ job = .announce s.field.bits ∨
      s.writer.isBringingUp = false ∧ job.isAnnounce = false)
    (reader : s'.reader = s.reader)
    (unread : s'.conversation.standing = s.conversation.standing) :
    Writes known (jobs ++ s.begins s') (written ++ s.writes s') s' := by
  have taken : s.begins s' = [(job, s.field)] := by
    simp [begins, free, writer]
  have nothing : s.writes s' = [] := by simp [Session.writes, unwritten]
  have before : jobs.map (·.1.message) = written := by
    simpa [inFlight, free] using writes.current alive
  rw [taken, nothing, List.append_nil]
  refine ⟨?_, fun _ => ?_, ?_, .inr ?_, fun _ _ => by simp, ?_, ?_⟩
  · rw [List.map_append]
    exact writes.done.trans (List.prefix_append _ _)
  · simp [before, inFlight, writer]
  · rw [writer]
    exact nofun
  · rcases writes.first with empty | ⟨field, rest, shape, later⟩
    · rcases fits with ⟨_, rfl⟩ | ⟨up, _⟩
      · exact ⟨s.field, [], by rw [empty]; rfl, nofun⟩
      · exact absurd empty (writes.begun up alive)
    · rcases fits with ⟨bringing, _⟩ | ⟨_, further⟩
      · have empty := writes.opening bringing
        rw [shape] at empty
        contradiction
      · refine ⟨field, rest ++ [(job, s.field)], by rw [shape, List.cons_append], ?_⟩
        intro other inside
        rcases List.mem_append.mp inside with old | new
        · exact later other old
        · rw [List.mem_singleton.mp new]
          exact further
  · rw [reader]
    exact writes.reading
  · rw [reader, unread]
    exact writes.unread

/-- A job is done. -/
theorem finish {job : WriteJob} {deadline : Option Nat} (writes : Writes known jobs written s)
    (phase : s.writer = .writing job deadline)
    (grown : s'.transport.outbound.written = s.transport.outbound.written ++ [job.message])
    (up : s'.writer.isBringingUp = false) (free : s'.writer.job? = none)
    (reader : s'.reader = s.reader ∨ s'.reader ≠ .absent)
    (unread : s'.conversation.standing = s.conversation.standing) :
    Writes known (jobs ++ s.begins s') (written ++ s.writes s') s' := by
  have busy : s.begins s' = [] := by simp [begins, phase]
  have message : s.writes s' = [job.message] := by simp [Session.writes, grown]
  have all : jobs.map (·.1.message) = written ++ [job.message] := by
    simpa [inFlight, phase] using writes.current (by rw [phase]; rfl)
  have some_job : jobs ≠ [] := writes.begun (by rw [phase]; rfl) (by rw [phase]; rfl)
  rw [busy, message, List.append_nil]
  refine ⟨all ▸ List.prefix_rfl, fun _ => by simp [all, inFlight, free], ?_, writes.first,
    fun _ _ => some_job, fun _ => by simp, fun absent => ?_⟩
  · rw [up]
    exact nofun
  · rcases reader with same | started
    · rw [unread]
      exact writes.unread (same ▸ absent)
    · exact absurd absent started

theorem writerMove (writes : Writes known jobs written s) (move : WriterMove s s') :
    Writes known (jobs ++ s.begins s') (written ++ s.writes s') s' := by
  have idle : ∀ u : Session, u.writer.job? = none → s.begins u = [] := by
    intro u free
    simp [begins, free]
  cases move with
  | cut phase fired => exact writes.quiet (idle _ rfl) rfl (.inr (.inl rfl)) .rfl fun _ => rfl
  | abort phase alive cause =>
      exact writes.quiet (idle _ rfl) rfl (.inr (.inl rfl)) .rfl fun _ => rfl
  | dial phase alive sized unadopted =>
      exact writes.quiet (idle _ rfl) rfl (.inr (.inr ⟨by rw [phase]; rfl, rfl⟩)) .rfl
        fun _ => rfl
  | connected phase alive up =>
      exact writes.quiet (idle _ rfl) rfl (.inr (.inr ⟨by rw [phase]; rfl, rfl⟩)) .rfl
        fun _ => rfl
  | greeted phase alive =>
      exact writes.quiet (idle _ rfl) rfl (.inr (.inr ⟨by rw [phase]; rfl, rfl⟩)) .rfl
        fun _ => rfl
  | adopt phase alive sized adopted =>
      exact writes.begin (by rw [phase]; rfl) (by rw [phase]; rfl) rfl rfl
        (.inl ⟨by rw [phase]; rfl, rfl⟩) rfl rfl
  | welcome phase alive accepted =>
      exact writes.begin (by rw [phase]; rfl) (by rw [phase]; rfl) rfl rfl
        (.inl ⟨by rw [phase]; rfl, rfl⟩) rfl rfl
  | announced phase unbroken =>
      exact writes.finish phase rfl rfl rfl (.inr nofun) rfl
  | wrote phase further unbroken => exact writes.finish phase rfl rfl rfl (.inl rfl) rfl
  | crash phase further unbroken => exact writes.finish phase rfl rfl rfl (.inl rfl) rfl
  | failed phase cause =>
      exact writes.quiet (idle _ rfl) rfl (.inr (.inl rfl)) .rfl fun _ => rfl
  | close phase fired =>
      exact writes.quiet (idle _ rfl) rfl (.inr (.inl rfl)) .rfl fun _ => rfl
  | relay phase alive front =>
      exact writes.begin (by rw [phase]; rfl) (by rw [phase]; rfl) rfl rfl
        (.inr ⟨by rw [phase]; rfl, rfl⟩) rfl rfl
  | dryUp phase alive empty stopped =>
      exact writes.quiet (idle _ rfl) rfl (.inr (.inl rfl)) .rfl fun _ => rfl
  | keepAlive phase alive empty due =>
      exact writes.begin (by rw [phase]; rfl) (by rw [phase]; rfl) rfl rfl
        (.inr ⟨by rw [phase]; rfl, rfl⟩) rfl rfl
  | @released call up phase ended =>
      cases up <;>
        exact writes.quiet (idle _ rfl) rfl (.inr (.inl rfl)) .rfl fun _ => rfl
  | calling phase move =>
      exact writes.quiet (by simp [begins, phase]) rfl (.inl rfl) .rfl
        fun _ => rfl
  | closed phase =>
      exact writes.quiet (idle _ rfl) rfl (.inr (.inl rfl)) .rfl fun _ => rfl
  | joined phase ended =>
      exact writes.quiet (idle _ rfl) rfl (.inr (.inl rfl)) .rfl fun _ => rfl

/-- Nobody but the writer takes up jobs. -/
theorem others (writes : Writes known jobs written s) (writer : s'.writer = s.writer)
    (unwritten : s'.transport.outbound.written = s.transport.outbound.written)
    (reader : s'.reader = .absent ↔ s.reader = .absent)
    (unread : s'.reader = .absent → s'.conversation.standing = s.conversation.standing) :
    Writes known (jobs ++ s.begins s') (written ++ s.writes s') s' := by
  refine writes.quiet ?_ unwritten (.inl writer) reader unread
  unfold begins
  rw [writer]
  cases s.writer.job? <;> rfl

theorem move (writes : Writes known jobs written s) (move : Move s event s') :
    Writes known (jobs ++ s.begins s') (written ++ s.writes s') s' := by
  cases move with
  | wait => exact writes.others rfl rfl .rfl fun _ => rfl
  | outbox turn => exact writes.others rfl rfl .rfl fun _ => rfl
  | writer move => exact writes.writerMove move
  | reader move =>
      have frame := move.frame
      have present := move.started
      refine writes.others frame.writer (by rw [frame.outbound]) ?_ fun absent => ?_
      · exact ⟨fun absent => absurd absent present.2, fun absent => absurd absent present.1⟩
      · exact absurd absent present.2
  | call made move => exact writes.others rfl rfl .rfl fun _ => rfl
  | shutdown => exact writes.others rfl rfl .rfl fun _ => rfl
  | abandon made => exact writes.others rfl rfl .rfl fun _ => rfl
  | outside surroundings frame silent =>
      refine writes.others frame.writer frame.written (by rw [frame.reader]) ?_
      intro _
      rw [frame.conversation]

end Writes

/-! ### The ledger and the jobs -/

section Books

variable {s s' : Session} {event : Event} {ledger : Ledger} {jobs : List (WriteJob × Bitfield)}

theorem relays_append (earlier later : List (WriteJob × Bitfield)) :
    relays (earlier ++ later) = relays earlier ++ relays later :=
  List.filterMap_append

/-- The writer takes a message out of the slot when, and only when, it takes it up. -/
theorem WriterMove.slot (move : WriterMove s s') :
    (s'.outbox = s.outbox ∧ relays (s.begins s') = []) ∨
      (s'.outbox = { s.outbox with slot := s.outbox.slot.close } ∧
        relays (s.begins s') = []) ∨
      ∃ message later, s.outbox.slot.items = message :: later ∧
        s'.outbox = { s.outbox with slot := (s.outbox.slot.take 1).2 } ∧
        relays (s.begins s') = [message] := by
  have idle : ∀ u : Session, u.writer.job? = none → relays (s.begins u) = [] := by
    intro u free
    simp [begins, free, relays]
  have starts : ∀ u : Session, s.writer.isBringingUp = true →
      u.writer.job? = some (.announce s.field.bits) → relays (s.begins u) = [] := by
    intro u bringing announcing
    unfold begins
    split <;> simp [relays, announcing, WriteJob.relayed?]
  cases move with
  | adopt phase => exact .inl ⟨rfl, starts _ (by rw [phase]; rfl) rfl⟩
  | welcome phase => exact .inl ⟨rfl, starts _ (by rw [phase]; rfl) rfl⟩
  | cut => exact .inr (.inl ⟨rfl, idle _ rfl⟩)
  | crash => exact .inr (.inl ⟨rfl, idle _ rfl⟩)
  | joined => exact .inr (.inl ⟨rfl, idle _ rfl⟩)
  | @released call up =>
      cases up with
      | false => exact .inr (.inl ⟨rfl, idle _ rfl⟩)
      | true => exact .inl ⟨rfl, idle _ rfl⟩
  | @relay keepAliveAt message later phase alive front =>
      refine .inr (.inr ⟨message, later, front, rfl, ?_⟩)
      have free : s.writer.job? = none := by rw [phase]; rfl
      simp [begins, free, beginWrite, relays, WriteJob.relayed?]
  | keepAlive phase =>
      have free : s.writer.job? = none := by rw [phase]; rfl
      exact .inl ⟨rfl, by simp [begins, free, beginWrite, relays, WriteJob.relayed?]⟩
  | calling phase =>
      have free : s.writer.job? = none := by rw [phase]; rfl
      exact .inl ⟨rfl, idle _ free⟩
  | _ => exact .inl ⟨rfl, idle _ rfl⟩

/-- Nobody but the writer takes up a message. -/
theorem relays_begins_of_writer (writer : s'.writer = s.writer) :
    relays (jobs ++ s.begins s') = relays jobs := by
  have nothing : s.begins s' = [] := by
    unfold begins
    rw [writer]
    cases s.writer.job? <;> rfl
  rw [nothing, List.append_nil]

/-- Neither the writer nor the write queue does anything. -/
theorem books_quiet (books : Books ledger (relays jobs) s.outbox)
    (uncancelled : s.retraction? event = none) (writer : s'.writer = s.writer)
    (outbox : s'.outbox = s.outbox) :
    Books (ledger.follow (s.retraction? event) s.outbox s'.outbox) (relays (jobs ++ s.begins s'))
      s'.outbox := by
  rw [uncancelled, relays_begins_of_writer writer, outbox,
    ledger.follow_unmoved (Mailbox.gained_self _) (Mailbox.gained_self _)]
  exact books

theorem books_writer (books : Books ledger (relays jobs) s.outbox) (move : WriterMove s s') :
    Books (ledger.follow none s.outbox s'.outbox) (relays (jobs ++ s.begins s')) s'.outbox := by
  rw [relays_append]
  rcases move.slot with ⟨outbox, taken⟩ | ⟨outbox, taken⟩ | ⟨message, later, front, outbox, taken⟩
  · rw [taken, List.append_nil, outbox,
      ledger.follow_unmoved (Mailbox.gained_self _) (Mailbox.gained_self _)]
    exact books
  · have unmoved : ledger.follow none s.outbox { s.outbox with slot := s.outbox.slot.close } =
        ledger := ledger.follow_unmoved (Mailbox.gained_self _) (Mailbox.gained_close _ _)
    rw [taken, List.append_nil, outbox, unmoved]
    exact books.close
  · have unmoved : ledger.follow none s.outbox
        { s.outbox with slot := (s.outbox.slot.take 1).2 } = ledger :=
      ledger.follow_unmoved (Mailbox.gained_self _) (Mailbox.gained_take _ _)
    rw [taken, outbox, unmoved]
    exact books.take front

theorem books_move (books : Books ledger (relays jobs) s.outbox) (flow : s.Flowing)
    (move : Move s event s') :
    Books (ledger.follow (s.retraction? event) s.outbox s'.outbox) (relays (jobs ++ s.begins s'))
      s'.outbox := by
  have same : Books ledger (relays jobs)
      ({ s.outbox with hasSenders := s.hasSenders } : Outbox) :=
    ⟨books.inOrder, books.queue, books.handed, books.slot⟩
  cases move with
  | @wait task stuck =>
      refine books_quiet books ?_ rfl rfl
      cases task with
      | outbox =>
          have waiting : ({ s.outbox with hasSenders := s.hasSenders } : Outbox).turn
              s.teardown.hasFired = none := by
            simpa [step, stepOutbox] using stuck
          have untaken := Books.retraction?_of_waiting waiting
          exact untaken
      | _ => rfl
  | @outbox box turn =>
      have taken : relays (jobs ++ s.begins { s with outbox := box }) = relays jobs :=
        relays_begins_of_writer rfl
      rw [taken]
      exact same.turn flow.isListening turn
  | writer move => exact books_writer books move
  | reader move =>
      rw [relays_begins_of_writer move.frame.writer]
      exact books.arrive move.frame.entered move.frame.outbox
  | call made move => exact books_quiet books rfl rfl rfl
  | shutdown => exact books_quiet books rfl rfl rfl
  | abandon made => exact books_quiet books rfl rfl rfl
  | outside surroundings frame silent =>
      have uncancelled : s.retraction? event = none := by
        cases event with
        | task task => contradiction
        | _ => rfl
      rw [uncancelled, relays_begins_of_writer frame.writer]
      exact books.arrive frame.entered (by rw [frame.outbox])

end Books

/-! ### Any history -/

section Runs

variable {s : Session} (history : List Event)

theorem writes_run {known : Standing} (fresh : Writes known [] [] s) :
    Writes known (s.jobs history) (s.written history) (s.run history) := by
  induction history using List.reverseRecOn with
  | nil => exact fresh
  | append_singleton past event ih =>
      have moved := ih.move (after_move _ event)
      unfold jobs written at moved ⊢
      rwa [run_concat, observe_concat, observe_concat]

theorem books_run (life : s.Lifecycle) (flow : s.Flowing) (fresh : Books [] [] s.outbox) :
    Books (s.ledger history) (relays (s.jobs history)) (s.run history).outbox := by
  induction history using List.reverseRecOn with
  | nil => exact fresh
  | append_singleton past event ih =>
      have moved := books_move ih (flow.run life past) (after_move _ event)
      unfold ledger jobs at moved ⊢
      rwa [run_concat, trace_concat, observe_concat]

/-- The ledger holds what was accepted, all of it and nothing else. -/
theorem messages_ledger : (s.ledger history).messages = s.queued history := by
  have followed : ∀ (ledger : Ledger) (retraction : Option BlockRef) (before after : Outbox),
      (ledger.follow retraction before after).messages =
        ledger.messages ++ before.incoming.gained after.incoming := by
    intro ledger retraction before after
    unfold Ledger.follow
    cases retraction with
    | some ref => exact (Ledger.messages_strike _ ref).trans (ledger.messages_enter _)
    | none =>
        dsimp only
        split
        · exact ledger.messages_enter _
        · exact (Ledger.messages_handOver _).trans (ledger.messages_enter _)
  induction history using List.reverseRecOn with
  | nil => rfl
  | append_singleton past event ih =>
      unfold ledger queued at ih ⊢
      rw [trace_concat, observe_concat, followed, ih]
      rfl

end Runs

/-- Keep-alives aside, a job after the announcement writes what the outbox gave. -/
theorem filter_jobs {rest : List (WriteJob × Bitfield)}
    (later : ∀ job ∈ rest, job.1.isAnnounce = false) :
    (rest.map (·.1.message)).filter (· ≠ .keepAlive) =
      (relays rest).filter (· ≠ .keepAlive) := by
  induction rest with
  | nil => rfl
  | cons first rest ih =>
      have tail := ih fun job inside => later job (List.mem_cons_of_mem _ inside)
      obtain ⟨job, field⟩ := first
      cases job with
      | announce bits => exact absurd (later _ List.mem_cons_self) (by simp [WriteJob.isAnnounce])
      | relay message =>
          have relayed : relays ((.relay message, field) :: rest) = message :: relays rest := rfl
          rw [relayed, List.map_cons, List.filter_cons, List.filter_cons, tail]
          rfl
      | keepAlive =>
          have relayed : relays ((.keepAlive, field) :: rest) = relays rest := rfl
          rw [relayed, List.map_cons, List.filter_cons, if_neg (by simp [WriteJob.message]), tail]

/-- What is written is what was queued, in order.

The writer takes up the announcement of what we hold at that moment before anything else
and only once, and writes its jobs one after the other. Until the announcement is
written nobody has read anything, and what is known of the remote is what is known at
the start. The ledger holds all that the write queue has accepted. The messages that the
writer relays are a prefix of what survives in it, and so is, keep-alives aside, what is
written after the announcement. As long as nothing ends the connection each survivor is
with the writer, in the slot or queued. -/
theorem written_in_order (settings : Settings) (identity : Identity) (addr : String)
    (pieces : UInt64) (field : Bitfield) (capacities : Capacities) (transport : Transport)
    (history : List Event) :
    let s := Session.start settings identity addr pieces field capacities transport
    let now := s.run history
    let ledger := s.ledger history
    (s.jobs history = [] ∨ ∃ held rest, s.jobs history = (.announce held.bits, held) :: rest ∧
        ∀ job ∈ rest, job.1.isAnnounce = false) ∧
      s.written history <+: (s.jobs history).map (·.1.message) ∧
      (s.written history = [] → now.reader = .absent ∧
        now.conversation.standing = { remote := .empty pieces }) ∧
      ledger.messages = s.queued history ∧
      relays (s.jobs history) <+: ledger.survivors ∧
      ((s.written history).drop 1).filter (· ≠ .keepAlive) <+:
        ledger.survivors.filter (· ≠ .keepAlive) ∧
      (now.IsEnding ∨
        (s.jobs history).map (·.1.message) = s.written history ++ now.inFlight ∧
          ledger.survivors =
            relays (s.jobs history) ++ now.outbox.slot.items ++ now.outbox.queue) := by
  intro s now ledger
  have life : s.Lifecycle := .start settings identity addr pieces field capacities transport
  have flow : s.Flowing := .start settings identity addr pieces field capacities transport
  have writes : Writes { remote := .empty pieces } (s.jobs history) (s.written history) now := by
    refine writes_run history ⟨List.prefix_rfl, fun _ => rfl, fun _ => rfl, .inl rfl, ?_, ?_, ?_⟩
    · exact nofun
    · exact fun started => absurd rfl started
    · exact fun _ => rfl
  have books : Books ledger (relays (s.jobs history)) now.outbox := by
    refine books_run history life flow ⟨List.Pairwise.nil, fun _ => rfl, ?_, fun _ => rfl⟩
    exact List.prefix_rfl
  have survivors := Ledger.survivors_eq books.inOrder
  have taken : relays (s.jobs history) <+: ledger.survivors := by
    rw [survivors]
    exact ((List.prefix_append _ _).trans books.handed).trans (List.prefix_append _ _)
  refine ⟨writes.first, writes.done, fun unwritten => ?_, messages_ledger history, taken, ?_, ?_⟩
  · have absent : now.reader = .absent := by
      by_contra started
      exact writes.reading started unwritten
    exact ⟨absent, writes.unread absent⟩
  · have later : (((s.jobs history).map (·.1.message)).drop 1).filter (· ≠ .keepAlive) =
        (relays (s.jobs history)).filter (· ≠ .keepAlive) := by
      rcases writes.first with empty | ⟨held, rest, shape, further⟩
      · rw [empty]
        rfl
      · rw [shape]
        exact filter_jobs further
    have done := (writes.done.drop 1).filter (· ≠ Message.keepAlive)
    rw [later] at done
    exact done.trans (taken.filter _)
  · by_cases ending : now.IsEnding
    · exact .inl ending
    · have flowing := flow.run life history
      have running := flowing.isRunning ending
      have open_ : now.outbox.slot.isOpen = true := by
        by_contra closed
        exact ending (flowing.slot (by simpa using closed))
      have alive : now.writer.isEnding = false := by
        by_contra leaving
        exact ending (.inl ((life.run history).writer (by simpa using leaving)))
      refine .inr ⟨writes.current alive, ?_⟩
      rw [survivors, books.slot open_, books.queue running]

end Session

end PeerWire

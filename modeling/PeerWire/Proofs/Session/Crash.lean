import PeerWire.Program
import PeerWire.Proofs.Session.KeepAlive
import PeerWire.Proofs.Session.Standstill

/-!
Intervals that end after the last moment of the clock. The timer for the first keep-alive is
set far ahead then, but the moment of every later one is a plain sum, which does not exist: a
writer that completes a write which is not its first crashes with it. `Overruns` is that
situation, and the writer crashes in no other.

An interval that no moment of the clock is followed by leaves the writer one message after the
announcement, and a keep-alive thirty years later if there is none.
-/

namespace PeerWire

/-- The first message is written, and the writer waits for the next or is writing it. -/
def WriterPhase.isUnderWay : WriterPhase → Bool
  | .idle _ | .writing (.relay _) _ | .writing .keepAlive _ => true
  | _ => false

theorem WriterPhase.isUnderWay_writing {job : WriteJob} (further : job.isAnnounce = false)
    (deadline : Option Nat) : (WriterPhase.writing job deadline).isUnderWay = true := by
  cases job <;> first | rfl | contradiction

namespace Session

/-- The next step of the writer completes a write that is not the first one, and the clock has
no moment for the end of the interval that begins with it. -/
structure Overruns (s : Session) (past : List Event) : Prop where
  further : s.written past ≠ []
  completes : (s.run past).writes ((s.run past).after (.task .writer)) ≠ []
  unnamed : Clock.after? (s.run past).now s.settings.keepAlive = none

section Steps

variable {s s' : Session} {event : Event}

theorem writes_of_same (same : s'.transport.outbound.written = s.transport.outbound.written) :
    s.writes s' = [] := by
  rw [writes, same, List.drop_length]

theorem writes_of_grown {message : Message}
    (grown : s'.transport.outbound.written = s.transport.outbound.written ++ [message]) :
    s.writes s' = [message] := by
  rw [writes, grown, List.drop_left]

/-- What an event means for the writes of a connection. -/
inductive Stroke (s : Session) (event : Event) (s' : Session) : Prop where
  /-- The first message is written, and the reader begins. -/
  | first (message : Message) (own : event = .task .writer)
      (phase : s.writer.isBeforeReader = true) (written : s.writes s' = [message])
      (reader : s'.reader ≠ .absent)
      (waiting : s'.writer = .idle (Clock.timer s.now s.settings.keepAlive))
  /-- A later message is written, and the writer waits for the next. -/
  | later {moment : Nat} (message : Message) (own : event = .task .writer)
      (phase : s.writer.isUnderWay = true) (written : s.writes s' = [message])
      (reader : s'.reader = s.reader)
      (named : Clock.after? s.now s.settings.keepAlive = some moment)
      (waiting : s'.writer = .idle moment)
  /-- A later message is written, and the writer crashes. -/
  | last (message : Message) (own : event = .task .writer)
      (phase : s.writer.isUnderWay = true) (written : s.writes s' = [message])
      (reader : s'.reader = s.reader) (unnamed : Clock.after? s.now s.settings.keepAlive = none)
      (crashed : s'.writer = .crashed)
  /-- The writer takes up a message, or a keep-alive that is due. -/
  | begun {moment : Nat} {job : WriteJob} (own : event = .task .writer)
      (phase : s.writer = .idle moment) (unwritten : s.writes s' = [])
      (reader : s'.reader = s.reader) (writing : ∃ deadline, s'.writer = .writing job deadline)
      (due : job = .keepAlive → moment ≤ s.now)
  /-- The writer stays where it is, or leaves for good. -/
  | aside (unwritten : s.writes s' = []) (reader : s'.reader = .absent ↔ s.reader = .absent)
      (writer : s'.writer = s.writer ∨
        s'.writer.isUnderWay = false ∧ s'.writer ≠ .crashed)

theorem WriterMove.stroke (move : WriterMove s s') : Stroke s (.task .writer) s' := by
  cases move with
  | announced phase unbroken =>
      exact .first _ rfl (by rw [phase]; rfl) (writes_of_grown rfl) nofun rfl
  | wrote phase further unbroken named =>
      exact .later _ rfl (by rw [phase]; exact WriterPhase.isUnderWay_writing further _)
        (writes_of_grown rfl) rfl named rfl
  | crash phase further unbroken unnamed =>
      exact .last _ rfl (by rw [phase]; exact WriterPhase.isUnderWay_writing further _)
        (writes_of_grown rfl) rfl unnamed rfl
  | relay phase alive front =>
      exact .begun rfl phase (writes_of_same rfl) rfl ⟨_, rfl⟩ nofun
  | keepAlive phase alive empty due =>
      exact .begun rfl phase (writes_of_same rfl) rfl ⟨_, rfl⟩ fun _ => due
  | calling => exact .aside (writes_of_same rfl) .rfl (.inl rfl)
  | @released call up phase ended =>
      cases up <;> exact .aside (writes_of_same rfl) .rfl (.inr ⟨rfl, nofun⟩)
  | _ => exact .aside (writes_of_same rfl) .rfl (.inr ⟨rfl, nofun⟩)

theorem Move.stroke (move : Move s event s') : Stroke s event s' := by
  cases move with
  | writer move => exact move.stroke
  | reader move =>
      have frame := move.frame
      have started := move.started
      refine .aside (writes_of_same (by rw [frame.outbound])) ?_ (.inl frame.writer)
      exact ⟨fun absent => absurd absent started.2, fun absent => absurd absent started.1⟩
  | outside surroundings frame silent =>
      exact .aside (writes_of_same frame.written) (by rw [frame.reader]) (.inl frame.writer)
  | _ => exact .aside (writes_of_same rfl) .rfl (.inl rfl)

/-- Where the writer waits it has set its timer just now, or has waited before. -/
theorem Stroke.of_idle {moment : Nat} (stroke : Stroke s event s')
    (idle : s'.writer = .idle moment) :
    s.writes s' ≠ [] ∧ moment = Clock.timer s.now s.settings.keepAlive ∨
      s.writes s' = [] ∧ s.writer = .idle moment := by
  cases stroke with
  | first message own phase written reader waiting =>
      rw [waiting] at idle
      cases idle
      exact .inl ⟨by simp [written], rfl⟩
  | later message own phase written reader named waiting =>
      rw [waiting] at idle
      cases idle
      exact .inl ⟨by simp [written], by simp [Clock.timer, named]⟩
  | last message own phase written reader unnamed crashed =>
      rw [crashed] at idle
      contradiction
  | begun own phase unwritten reader writing due =>
      obtain ⟨deadline, writing⟩ := writing
      rw [writing] at idle
      contradiction
  | aside unwritten reader writer =>
      rcases writer with same | ⟨out, -⟩
      · exact .inr ⟨unwritten, same ▸ idle⟩
      · rw [idle] at out
        contradiction

/-- A keep-alive in the writer's hands was there before, or was due. -/
theorem Stroke.of_keepAlive {deadline : Option Nat} (stroke : Stroke s event s')
    (showing : s'.writer = .writing .keepAlive deadline) :
    s.writes s' = [] ∧ (s.writer = .writing .keepAlive deadline ∨
      ∃ moment, s.writer = .idle moment ∧ moment ≤ s.now) := by
  cases stroke with
  | first message own phase written reader waiting =>
      rw [waiting] at showing
      contradiction
  | later message own phase written reader named waiting =>
      rw [waiting] at showing
      contradiction
  | last message own phase written reader unnamed crashed =>
      rw [crashed] at showing
      contradiction
  | begun own phase unwritten reader writing due =>
      obtain ⟨_, writing⟩ := writing
      rw [writing] at showing
      cases showing
      exact ⟨unwritten, .inr ⟨_, phase, due rfl⟩⟩
  | aside unwritten reader writer =>
      rcases writer with same | ⟨out, -⟩
      · exact ⟨unwritten, .inl (same ▸ showing)⟩
      · rw [showing] at out
        contradiction

/-- The writer crashes with a write. -/
theorem Stroke.of_crashed (stroke : Stroke s event s') (sound : s.writer ≠ .crashed)
    (crashed : s'.writer = .crashed) :
    event = .task .writer ∧ s.writer.isUnderWay = true ∧ s.writes s' ≠ [] ∧
      Clock.after? s.now s.settings.keepAlive = none := by
  cases stroke with
  | first message own phase written reader waiting =>
      rw [waiting] at crashed
      contradiction
  | later message own phase written reader named waiting =>
      rw [waiting] at crashed
      contradiction
  | last message own phase written reader unnamed =>
      exact ⟨own, phase, by simp [written], unnamed⟩
  | begun own phase unwritten reader writing due =>
      obtain ⟨deadline, writing⟩ := writing
      rw [writing] at crashed
      contradiction
  | aside unwritten reader writer =>
      rcases writer with same | ⟨-, away⟩
      · exact absurd (same ▸ crashed) sound
      · exact absurd crashed away

end Steps

/-! ### Any history -/

section Runs

variable {s : Session} {past history : List Event} {event : Event}

theorem written_concat (s : Session) (past : List Event) (event : Event) :
    s.written (past ++ [event]) =
      s.written past ++ (s.run past).writes ((s.run past).after event) :=
  observe_concat _ s past event

/-- The reader begins with the first message that is written, and the writer waits for a later
one, or writes it, only after that. -/
structure Opened (s : Session) (history : List Event) : Prop where
  begun : s.written history ≠ [] ↔ (s.run history).reader ≠ .absent
  underWay : (s.run history).writer.isUnderWay = true → (s.run history).reader ≠ .absent

theorem Opened.run (fresh : s.writer.isBringingUp = true) (absent : s.reader = .absent)
    (history : List Event) : s.Opened history := by
  induction history using List.reverseRecOn with
  | nil =>
      refine ⟨by simp [written, observe, absent], ?_⟩
      intro underWay
      rw [run_nil] at underWay
      cases phase : s.writer <;> rw [phase] at fresh underWay <;> contradiction
  | append_singleton past event ih =>
      have stroke := (after_move (s.run past) event).stroke
      constructor
      · rw [written_concat, run_concat]
        cases stroke with
        | first message own phase written reader waiting => simp [written, reader]
        | later message own phase written reader => simp [written, reader, ih.underWay phase]
        | last message own phase written reader => simp [written, reader, ih.underWay phase]
        | begun own phase unwritten reader =>
            rw [unwritten, List.append_nil, reader]
            exact ih.begun
        | aside unwritten reader =>
            rw [unwritten, List.append_nil, Ne, Ne, reader]
            exact ih.begun
      · rw [run_concat]
        intro underWay
        cases stroke with
        | first message own phase written reader => exact reader
        | later message own phase written reader => exact reader ▸ ih.underWay phase
        | last message own phase written reader => exact reader ▸ ih.underWay phase
        | begun own phase unwritten reader =>
            rw [reader]
            exact ih.underWay (by rw [phase]; rfl)
        | aside unwritten reader writer =>
            rw [Ne, reader]
            rcases writer with same | ⟨out, -⟩
            · exact ih.underWay (same ▸ underWay)
            · rw [out] at underWay
              contradiction

/-- The writer crashes by completing a write that is not its first one at a moment from which
the clock cannot name the end of the interval, and in no other way. -/
theorem crashed_iff_overruns (life : s.Lifecycle) (fresh : s.writer.isBringingUp = true)
    (absent : s.reader = .absent) (history : List Event) :
    (s.run history).writer = .crashed ↔
      ∃ past later, history = past ++ .task .writer :: later ∧ s.Overruns past := by
  constructor
  · intro crashed
    induction history using List.reverseRecOn with
    | nil =>
        rw [run_nil] at crashed
        rw [crashed] at fresh
        contradiction
    | append_singleton past event ih =>
        by_cases before : (s.run past).writer = .crashed
        · obtain ⟨earlier, later, rfl, overruns⟩ := ih before
          exact ⟨earlier, later ++ [event], by simp, overruns⟩
        · rw [run_concat] at crashed
          have opened := Opened.run fresh absent past
          obtain ⟨rfl, underWay, completes, unnamed⟩ :=
            (after_move (s.run past) event).stroke.of_crashed before crashed
          rw [(settings_run s past).1] at unnamed
          exact ⟨past, [], rfl, opened.begun.mpr (opened.underWay underWay), completes, unnamed⟩
  · rintro ⟨past, later, rfl, overruns⟩
    have opened := Opened.run fresh absent past
    have unnamed := overruns.unnamed
    rw [← (settings_run s past).1] at unnamed
    have step : s.run (past ++ .task .writer :: later) =
        ((s.run past).after (.task .writer)).run later := run_append s past _
    rw [step]
    refine crashed_run ?_ later
    cases (after_move (s.run past) (.task .writer)).stroke with
    | first message own phase =>
        exact absurd ((life.run past).unread phase) (opened.begun.mp overruns.further)
    | later message own phase written reader named =>
        rw [unnamed] at named
        contradiction
    | last message own phase written reader unnamed crashed => exact crashed
    | begun own phase unwritten => exact absurd unwritten overruns.completes
    | aside unwritten => exact absurd unwritten overruns.completes

/-- A writer that waits does so until its timer goes off, and takes up no keep-alive before. -/
structure Timed (s : Session) (history : List Event) : Prop where
  waiting : ∀ moment, (s.run history).writer = .idle moment →
    ∃ last, s.lastWrite history = some last ∧ moment = Clock.timer last s.settings.keepAlive
  showing : ∀ deadline, (s.run history).writer = .writing .keepAlive deadline →
    ∃ last, s.lastWrite history = some last ∧
      Clock.timer last s.settings.keepAlive ≤ (s.run history).now

theorem Timed.run (fresh : s.writer.isBringingUp = true) (history : List Event) :
    s.Timed history := by
  induction history using List.reverseRecOn with
  | nil =>
      constructor
      · intro moment idle
        rw [run_nil] at idle
        rw [idle] at fresh
        contradiction
      · intro deadline showing
        rw [run_nil] at showing
        rw [showing] at fresh
        contradiction
  | append_singleton past event ih =>
      have stroke := (after_move (s.run past) event).stroke
      have forward := now_le_after (s.run past) event
      constructor
      · intro moment
        rw [run_concat, lastWrite_concat]
        intro idle
        rcases stroke.of_idle idle with ⟨written, set⟩ | ⟨unwritten, before⟩
        · rw [if_neg written]
          rw [(settings_run s past).1] at set
          exact ⟨_, rfl, set⟩
        · rw [if_pos unwritten]
          exact ih.waiting moment before
      · intro deadline
        rw [run_concat, lastWrite_concat]
        intro showing
        obtain ⟨unwritten, before | ⟨moment, idle, due⟩⟩ := stroke.of_keepAlive showing
        · obtain ⟨last, written, come⟩ := ih.showing deadline before
          rw [if_pos unwritten]
          exact ⟨last, written, come.trans forward⟩
        · obtain ⟨last, written, rfl⟩ := ih.waiting moment idle
          rw [if_pos unwritten]
          exact ⟨last, written, due.trans forward⟩

/-- Where no moment is followed by a whole interval, the second message that is written is the
last, and the writer crashes with it. -/
theorem crashed_iff_two_written (life : s.Lifecycle) (fresh : s.writer.isBringingUp = true)
    (absent : s.reader = .absent) (long : Clock.last < s.settings.keepAlive)
    (history : List Event) :
    (s.written history).length ≤ 2 ∧
      ((s.run history).writer = .crashed ↔ (s.written history).length = 2) := by
  have unnamed : ∀ now, Clock.after? now s.settings.keepAlive = none := by
    intro now
    rw [Clock.after?, if_neg (by omega)]
  induction history using List.reverseRecOn with
  | nil =>
      refine ⟨Nat.zero_le 2, ?_⟩
      rw [run_nil]
      constructor
      · intro crashed
        rw [crashed] at fresh
        contradiction
      · intro two
        exact absurd two (Nat.zero_ne_add_one 1)
  | append_singleton past event ih =>
      obtain ⟨most, crash⟩ := ih
      have opened := Opened.run fresh absent past
      have move := after_move (s.run past) event
      rw [written_concat, run_concat, List.length_append]
      cases move.stroke with
      | first message own phase written reader waiting =>
          have none : s.written past = [] := by
            by_contra some_written
            exact opened.begun.mp some_written ((life.run past).unread phase)
          simp [none, written, waiting]
      | later message own phase written reader named =>
          rw [(settings_run s past).1, unnamed] at named
          contradiction
      | last message own phase written reader unnamed crashed =>
          have one := List.length_pos_iff.mpr (opened.begun.mpr (opened.underWay phase))
          have not_two : (s.written past).length ≠ 2 := by
            intro two
            rw [crash.mpr two] at phase
            contradiction
          simp only [written, List.length_singleton, crashed, true_iff]
          omega
      | begun own phase unwritten reader writing =>
          obtain ⟨deadline, writing⟩ := writing
          rw [phase] at crash
          rw [unwritten, List.length_nil, Nat.add_zero, writing]
          exact ⟨most, by simpa using crash⟩
      | aside unwritten reader writer =>
          rw [unwritten, List.length_nil, Nat.add_zero]
          refine ⟨most, ?_⟩
          rcases writer with same | ⟨-, away⟩
          · rw [same]
            exact crash
          · exact ⟨fun crashed => absurd crashed away,
              fun two => absurd (move.crashed (crash.mpr two)) away⟩

end Runs

/-- Some intervals do crash the writer. It crashes exactly if it completes a write that is not its
first at a moment from which the clock cannot name the end of the interval; as long as the clock
can name that end, it has not crashed. A keep-alive is taken up only when the timer since the
last write has gone off, which lies thirty years ahead where it should lie beyond the clock. An
interval that is longer than all the time the clock knows is survived by the first message
alone: with the second one that is written, whichever it is, the writer crashes. -/
theorem crashed_iff (settings : Settings) (identity : Identity) (addr : String) (pieces : UInt64)
    (field : Bitfield) (capacities : Capacities) (transport : Transport) (history : List Event) :
    let s := Session.start settings identity addr pieces field capacities transport
    let now := s.run history
    (now.writer = .crashed ↔
        ∃ past later, history = past ++ .task .writer :: later ∧ s.Overruns past) ∧
      (now.now + settings.keepAlive ≤ Clock.last → now.writer ≠ .crashed) ∧
      (∀ deadline, now.writer = .writing .keepAlive deadline →
        ∃ last, s.lastWrite history = some last ∧
          Clock.timer last settings.keepAlive ≤ now.now) ∧
      (Clock.last < settings.keepAlive →
        (s.written history).length ≤ 2 ∧
          (now.writer = .crashed ↔ (s.written history).length = 2)) := by
  intro s now
  have life : s.Lifecycle :=
    .start settings identity addr pieces field capacities transport
  refine ⟨crashed_iff_overruns life rfl rfl history, ?_, (Timed.run rfl history).showing,
    fun long => crashed_iff_two_written life rfl rfl long history⟩
  intro named crashed
  have unnamed : Clock.after? now.now settings.keepAlive = none :=
    unnamed_run (s := s) nofun history crashed
  rw [Clock.after?, if_pos named] at unnamed
  contradiction

/-- The command line takes an interval of as many seconds as a word of 64 bits counts. The dial
and the handshake succeed, our field is announced, and the remote has a piece for us: the
writer tells it that we are interested, and crashes. -/
theorem crashed_by_keepAlive :
    (match Launch.ofCommandLine ["--peer", "10.0.0.1:6881", "--info-hash",
        "abababababababababababababababababababab", "--pieces", "4", "--peer-id",
        "-SP0100-000000000001", "--keep-alive", "18446744073709551615"] default .connected with
      | .over _ => none
      | .running arguments client =>
          let theirs := Handshake.ours { client.session.identity with peerId := default }
          let now := client.session.run [.task .writer, .task .writer, .task .writer,
            .remoteSendsBytes theirs.encode, .task .writer, .task .writer,
            .remoteSends (.ok (.havePiece 3)), .task .reader, .task .reader,
            .task .outbox, .task .outbox, .task .writer, .task .writer]
          some (arguments.keepAlive, now.transport.outbound.written, now.writer)) =
      some (18446744073709551615, [.bitfield [0], .interested], .crashed) := by
  decide +kernel

end Session

end PeerWire

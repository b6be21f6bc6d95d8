import PeerWire.Proofs.Session.History
import PeerWire.Proofs.Session.Moves

/-!
How the tasks of a connection come to their end. A task begins to end only after a call
for the end has been made; the writer goes last; and a call that is not over yet has
somebody who waits for it. `Lifecycle` states all of this, and holds whatever happens to
a connection.
-/

namespace PeerWire

/-- The writer is on its way out. -/
def WriterPhase.isEnding : WriterPhase → Bool
  | .tearingDown _ _ | .closing _ | .joining | .finished => true
  | _ => false

/-- The first message is not written, and never will be when the task is on its way
out. Nobody reads before that. -/
def WriterPhase.isBeforeReader : WriterPhase → Bool
  | .starting | .dialing _ | .greeting _ _ | .writing (.announce _) _ | .tearingDown _ false =>
    true
  | _ => false

/-- The reader is on its way out. -/
def ReaderPhase.isEnding : ReaderPhase → Bool
  | .tearingDown _ | .finished => true
  | _ => false

/-- The reader has not begun, or is done. -/
def ReaderPhase.isIdle : ReaderPhase → Bool
  | .absent | .finished => true
  | _ => false

theorem ReaderPhase.not_isIdle {phase : ReaderPhase} (atWork : phase.isAtWork = true) :
    phase.isIdle = false := by
  cases phase <;> first | rfl | contradiction

theorem ReaderPhase.not_isEnding {phase : ReaderPhase} (atWork : phase.isAtWork = true) :
    phase.isEnding = false := by
  cases phase <;> first | rfl | contradiction

theorem WriterPhase.isBeforeReader_of_isBringingUp {phase : WriterPhase}
    (bringing : phase.isBringingUp = true) : phase.isBeforeReader = true := by
  cases phase <;> first | rfl | contradiction

theorem WriterPhase.not_isEnding {phase : WriterPhase} (bringing : phase.isBringingUp = true) :
    phase.isEnding = false := by
  cases phase <;> first | rfl | contradiction

namespace Session

/-- The settings stay along any history, and so does the way the wire came about. -/
theorem settings_run (s : Session) (history : List Event) :
    (s.run history).settings = s.settings ∧
      (s.run history).transport.adopted = s.transport.adopted := by
  refine run_invariant (motive := fun t => t.settings = s.settings ∧
    t.transport.adopted = s.transport.adopted) ⟨rfl, rfl⟩ ?_ history
  rintro t t' event move ⟨settings, adopted⟩
  exact ⟨move.settings.1.trans settings, move.settings.2.trans adopted⟩

theorem identity_run (s : Session) (history : List Event) :
    (s.run history).identity = s.identity :=
  run_invariant (motive := fun t => t.identity = s.identity) rfl
    (fun move same => move.identity_eq.trans same) history

/-- Somebody waits for the call to end. -/
def Awaits (s : Session) (number : Nat) : Prop :=
  number ∈ s.ownerCalls ∨ (∃ up, s.writer = .tearingDown number up) ∨
    s.reader = .tearingDown number

/-- How far the tasks are on their way out, and who waits for a call. -/
structure Lifecycle (s : Session) : Prop where
  oneShot : s.teardown.OneShot
  writer : s.writer.isEnding = true → s.teardown.hasFired = true
  reader : s.reader.isEnding = true → s.teardown.hasFired = true
  unread : s.writer.isBeforeReader = true → s.reader = .absent
  last : s.writer = .finished → s.reader.isIdle = true
  awaited : ∀ number, number < s.teardown.calls.length → s.teardown.hasEnded number = false →
    s.Awaits number

namespace Lifecycle

variable {s s' : Session}

theorem start (settings : Settings) (identity : Identity) (addr : String) (pieces : UInt64)
    (field : Bitfield) (capacities : Capacities) (transport : Transport) :
    (Session.start settings identity addr pieces field capacities transport).Lifecycle where
  oneShot := .fresh rfl rfl
  writer := by simp [Session.start, WriterPhase.isEnding]
  reader := by simp [Session.start, ReaderPhase.isEnding]
  unread _ := rfl
  last _ := rfl
  awaited := by simp [Session.start]

/-- Whoever waits for a call goes on waiting until it is over. -/
theorem awaited_later (life : s.Lifecycle) (later : s.teardown.Later s'.teardown)
    (made : ∀ number, number < s'.teardown.calls.length →
      number < s.teardown.calls.length ∨ s'.Awaits number)
    (still : ∀ number, s.Awaits number → s.teardown.hasEnded number = false → s'.Awaits number)
    (number : Nat) (bound : number < s'.teardown.calls.length)
    (unended : s'.teardown.hasEnded number = false) : s'.Awaits number := by
  rcases made number bound with old | new
  · have before : s.teardown.hasEnded number = false := by
      by_contra halted
      have ended := later.ended number (by simpa using halted)
      rw [unended] at ended
      contradiction
    exact still number (life.awaited number old before) before
  · exact new

/-- The tasks stay where they are while the calls go on. -/
theorem advance (life : s.Lifecycle) (one : s'.teardown.OneShot)
    (later : s.teardown.Later s'.teardown)
    (length : s'.teardown.calls.length = s.teardown.calls.length) (writer : s'.writer = s.writer)
    (reader : s'.reader = s.reader) (owner : s'.ownerCalls = s.ownerCalls) : s'.Lifecycle where
  oneShot := one
  writer := by rw [writer]; exact fun ending => later.fired (life.writer ending)
  reader := by rw [reader]; exact fun ending => later.fired (life.reader ending)
  unread := by rw [writer, reader]; exact life.unread
  last := by rw [writer, reader]; exact life.last
  awaited := life.awaited_later later (fun _ bound => .inl (length ▸ bound)) fun _ waiting _ => by
    unfold Awaits
    rw [writer, reader, owner]
    exact waiting

/-- The writer goes on, and makes no call. A call of its own is over by then. -/
theorem writerOnward (life : s.Lifecycle) (calls : s'.teardown.calls = s.teardown.calls)
    (fired : s'.teardown.hasFired = s.teardown.hasFired) (owner : s'.ownerCalls = s.ownerCalls)
    (done : ∀ call up, s.writer = .tearingDown call up → s.teardown.hasEnded call = true)
    (ending : s'.writer.isEnding = true → s.teardown.hasFired = true)
    (reader : s'.reader = s.reader ∨ s.reader = .absent ∧ s'.reader.isAtWork = true)
    (unread : s'.writer.isBeforeReader = true → s'.reader = .absent)
    (last : s'.writer = .finished → s'.reader.isIdle = true) : s'.Lifecycle where
  oneShot := life.oneShot.congr calls fired
  writer := by rw [fired]; exact ending
  reader leaving := by
    rw [fired]
    rcases reader with same | ⟨_, begun⟩
    · exact life.reader (same ▸ leaving)
    · rw [ReaderPhase.not_isEnding begun] at leaving
      contradiction
  unread := unread
  last := last
  awaited := by
    refine life.awaited_later (.congr calls fired) (fun _ bound => .inl (calls ▸ bound)) ?_
    rintro number (owned | ⟨up, own⟩ | reading) unended
    · exact .inl (owner ▸ owned)
    · rw [done number up own] at unended
      contradiction
    · rcases reader with same | ⟨absent, _⟩
      · exact .inr (.inr (same.trans reading))
      · rw [absent] at reading
        contradiction

/-- The writer goes on while it is not on its way out. -/
theorem writerBusy (life : s.Lifecycle) (calls : s'.teardown.calls = s.teardown.calls)
    (fired : s'.teardown.hasFired = s.teardown.hasFired) (owner : s'.ownerCalls = s.ownerCalls)
    (before : s.writer.isEnding = false) (after : s'.writer.isEnding = false)
    (reader : s'.reader = s.reader ∨ s.reader = .absent ∧ s'.reader.isAtWork = true)
    (unread : s'.writer.isBeforeReader = true → s'.reader = .absent) : s'.Lifecycle := by
  refine life.writerOnward calls fired owner ?_ ?_ reader unread ?_
  · intro call up own
    rw [own] at before
    contradiction
  · intro ending
    rw [after] at ending
    contradiction
  · intro finished
    rw [finished] at after
    contradiction

/-- Somebody makes a call, and waits for it. -/
theorem called {reason : Ending} {deliveries : Mailbox Delivery} (life : s.Lifecycle)
    (teardown : s'.teardown =
      ({ s.teardown with deliveries } : Teardown).trigger reason s.now)
    (unread : s'.writer.isBeforeReader = true → s'.reader = .absent)
    (last : s'.writer = .finished → s'.reader.isIdle = true)
    (waits : s'.Awaits s.teardown.nextCall)
    (still : ∀ number, s.Awaits number → s'.Awaits number) : s'.Lifecycle := by
  have fired : s'.teardown.hasFired = true := by rw [teardown, Teardown.hasFired_trigger]
  have length : s'.teardown.calls.length = s.teardown.nextCall + 1 := by
    rw [teardown, Teardown.length_trigger]
    rfl
  have later : s.teardown.Later s'.teardown := by
    rw [teardown]
    exact ⟨fun _ => Teardown.hasFired_trigger _ _ _, fun number halted =>
      (Teardown.later_trigger _ _ _).ended number halted⟩
  refine ⟨?_, fun _ => fired, fun _ => fired, unread, last, ?_⟩
  · have one : ({ s.teardown with deliveries } : Teardown).OneShot := life.oneShot.congr rfl rfl
    rw [teardown]
    exact one.trigger reason s.now
  · refine life.awaited_later later ?_ fun number waiting _ => still number waiting
    intro number bound
    by_cases old : number < s.teardown.calls.length
    · exact .inl old
    · have new : number = s.teardown.nextCall := by
        unfold Teardown.nextCall at *
        omega
      exact .inr (new ▸ waits)

/-- The writer fails while it makes no call yet. -/
theorem failWriter {up : Bool} {reason : Ending} (life : s.Lifecycle)
    (before : s.writer.isEnding = false) (unread : up = false → s.reader = .absent) :
    (s.failWriter reason up).Lifecycle := by
  refine life.called rfl ?_ (by simp [Session.failWriter]) (.inr (.inl ⟨up, rfl⟩)) ?_
  · cases up with
    | false => exact fun _ => unread rfl
    | true => exact nofun
  · rintro number (owned | ⟨other, own⟩ | reading)
    · exact .inl owned
    · rw [own] at before
      contradiction
    · exact .inr (.inr reading)

theorem writerMove (life : s.Lifecycle) (move : WriterMove s s') : s'.Lifecycle := by
  cases move with
  | cut phase fired =>
      have absent := life.unread (WriterPhase.isBeforeReader_of_isBringingUp phase)
      refine life.writerOnward rfl rfl rfl ?_ (fun _ => fired) (.inl rfl) nofun ?_
      · intro call up own
        rw [own] at phase
        contradiction
      · intro _
        simp only [stopWriter, absent]
        rfl
  | abort phase alive cause =>
      exact life.failWriter (WriterPhase.not_isEnding phase) fun _ =>
        life.unread (WriterPhase.isBeforeReader_of_isBringingUp phase)
  | dial phase alive sized unadopted =>
      exact life.writerBusy rfl rfl rfl (by rw [phase]; rfl) rfl (.inl rfl) fun _ =>
        life.unread (by rw [phase]; rfl)
  | connected phase alive up =>
      exact life.writerBusy rfl rfl rfl (by rw [phase]; rfl) rfl (.inl rfl) fun _ =>
        life.unread (by rw [phase]; rfl)
  | greeted phase alive =>
      exact life.writerBusy rfl rfl rfl (by rw [phase]; rfl) rfl (.inl rfl) fun _ =>
        life.unread (by rw [phase]; rfl)
  | adopt phase alive sized adopted =>
      exact life.writerBusy rfl rfl rfl (by rw [phase]; rfl) rfl (.inl rfl) fun _ =>
        life.unread (by rw [phase]; rfl)
  | welcome phase alive accepted =>
      exact life.writerBusy rfl rfl rfl (by rw [phase]; rfl) rfl (.inl rfl) fun _ =>
        life.unread (by rw [phase]; rfl)
  | announced phase unbroken =>
      have absent := life.unread (by rw [phase]; rfl)
      exact life.writerBusy rfl rfl rfl (by rw [phase]; rfl) rfl (.inr ⟨absent, rfl⟩) nofun
  | wrote phase further unbroken =>
      exact life.writerBusy rfl rfl rfl (by rw [phase]; rfl) rfl (.inl rfl) nofun
  | crash phase further unbroken =>
      exact life.writerBusy rfl rfl rfl (by rw [phase]; rfl) rfl (.inl rfl) nofun
  | @failed job deadline text phase cause =>
      exact life.failWriter (by rw [phase]; rfl) nofun
  | close phase fired =>
      refine life.writerOnward rfl rfl rfl ?_ (fun _ => fired) (.inl rfl) nofun nofun
      intro call up own
      rw [phase] at own
      contradiction
  | relay phase alive front =>
      exact life.writerBusy rfl rfl rfl (by rw [phase]; rfl) rfl (.inl rfl) nofun
  | dryUp phase alive empty stopped =>
      exact life.failWriter (by rw [phase]; rfl) nofun
  | keepAlive phase alive empty due =>
      exact life.writerBusy rfl rfl rfl (by rw [phase]; rfl) rfl (.inl rfl) nofun
  | @released call up phase ended =>
      have fired := life.writer (by rw [phase]; rfl)
      have halted : ∀ other up', s.writer = .tearingDown other up' →
          s.teardown.hasEnded other = true := by
        intro other up' own
        rw [phase] at own
        cases own
        exact ended
      cases up with
      | false =>
          have absent := life.unread (by rw [phase]; rfl)
          refine life.writerOnward rfl rfl rfl halted (fun _ => fired) (.inl rfl) nofun ?_
          intro _
          simp only [Bool.false_eq_true, if_false, stopWriter, absent]
          rfl
      | true => exact life.writerOnward rfl rfl rfl halted (fun _ => fired) (.inl rfl) nofun nofun
  | calling phase move =>
      exact life.advance (life.oneShot.callMove move) move.later move.length_eq rfl rfl rfl
  | closed phase =>
      have fired := life.writer (by rw [phase]; rfl)
      refine life.writerOnward rfl rfl rfl ?_ (fun _ => fired) (.inl rfl) nofun nofun
      intro call up own
      rw [phase] at own
      contradiction
  | joined phase ended =>
      have fired := life.writer (by rw [phase]; rfl)
      refine life.writerOnward rfl rfl rfl ?_ (fun _ => fired) (.inl rfl) nofun ?_
      · intro call up own
        rw [phase] at own
        contradiction
      · intro _
        rcases ended with absent | finished
        · simp only [stopWriter, absent]
          rfl
        · simp only [stopWriter, finished]
          rfl

/-- Once the reader was started, the writer is past the point where it does that. -/
theorem isBeforeReader_eq_false (life : s.Lifecycle) (present : s.reader ≠ .absent) :
    s.writer.isBeforeReader = false := by
  by_contra before
  exact present (life.unread (by simpa using before))

/-- A reader that takes steps was started, and the writer waits for it. -/
theorem reader_waited_for (life : s.Lifecycle) (busy : s.reader.isIdle = false) :
    s.writer.isBeforeReader = false ∧ s.writer ≠ .finished := by
  constructor
  · refine life.isBeforeReader_eq_false ?_
    intro absent
    rw [absent] at busy
    contradiction
  · intro finished
    have idle := life.last finished
    rw [busy] at idle
    contradiction

theorem readerMove (life : s.Lifecycle) (move : ReaderMove s s') : s'.Lifecycle := by
  obtain ⟨writer, owner⟩ : s'.writer = s.writer ∧ s'.ownerCalls = s.ownerCalls :=
    ⟨move.frame.writer, move.frame.ownerCalls⟩
  cases move.turn with
  | onward before alive after teardown =>
      obtain ⟨started, running⟩ := life.reader_waited_for (ReaderPhase.not_isIdle before)
      have calls : s'.teardown.calls = s.teardown.calls := by rw [teardown]
      have fired : s'.teardown.hasFired = s.teardown.hasFired := by rw [teardown]
      refine ⟨life.oneShot.congr calls fired, ?_, ?_, ?_, ?_, ?_⟩
      · rw [writer, fired]
        exact life.writer
      · rw [ReaderPhase.not_isEnding after]
        exact nofun
      · rw [writer, started]
        exact nofun
      · rw [writer]
        exact fun finished => absurd finished running
      · refine life.awaited_later (.congr calls fired) (fun _ bound => .inl (calls ▸ bound)) ?_
        rintro number (owned | own | reading) _
        · exact .inl (owner ▸ owned)
        · exact .inr (.inl (writer ▸ own))
        · rw [reading] at before
          contradiction
  | failed before alive after teardown =>
      obtain ⟨started, running⟩ := life.reader_waited_for (ReaderPhase.not_isIdle before)
      refine life.called teardown ?_ ?_ (.inr (.inr after)) ?_
      · rw [writer, started]
        exact nofun
      · rw [writer]
        exact fun finished => absurd finished running
      · rintro number (owned | own | reading)
        · exact .inl (owner ▸ owned)
        · exact .inr (.inl (writer ▸ own))
        · rw [reading] at before
          contradiction
  | stopped before after teardown =>
      have calls : s'.teardown.calls = s.teardown.calls := by rw [teardown]
      have fired : s'.teardown.hasFired = s.teardown.hasFired := by rw [teardown]
      have busy : s.reader.isIdle = false ∧ s.teardown.hasFired = true := by
        rcases before with ⟨atWork, torn⟩ | ⟨call, own, ended⟩
        · exact ⟨ReaderPhase.not_isIdle atWork, torn⟩
        · exact ⟨by rw [own]; rfl, life.reader (by rw [own]; rfl)⟩
      obtain ⟨started, running⟩ := life.reader_waited_for busy.1
      refine ⟨life.oneShot.congr calls fired, fun _ => fired.trans busy.2,
        fun _ => fired.trans busy.2, ?_, fun _ => by rw [after]; rfl, ?_⟩
      · rw [writer, started]
        exact nofun
      · refine life.awaited_later (.congr calls fired) (fun _ bound => .inl (calls ▸ bound)) ?_
        rintro number (owned | own | reading) unended
        · exact .inl (owner ▸ owned)
        · exact .inr (.inl (writer ▸ own))
        · rcases before with ⟨atWork, _⟩ | ⟨call, own, ended⟩
          · rw [reading] at atWork
            contradiction
          · rw [reading] at own
            cases own
            rw [unended] at ended
            contradiction
  | calling before after move =>
      exact life.advance (life.oneShot.callMove move) move.later move.length_eq writer after owner

/-- Whatever happens, the tasks stay on their way. -/
theorem move {event : Event} (life : s.Lifecycle) (move : Move s event s') : s'.Lifecycle := by
  cases move with
  | wait => exact life
  | outbox turn => exact life.advance life.oneShot (.congr rfl rfl) rfl rfl rfl rfl
  | writer move => exact life.writerMove move
  | reader move => exact life.readerMove move
  | call made move =>
      exact life.advance (life.oneShot.callMove move) move.later move.length_eq rfl rfl rfl
  | shutdown =>
      refine life.called rfl life.unread life.last (.inl (by simp [Session.shutdown])) ?_
      rintro number (owned | waiting)
      · exact .inl (by simp [Session.shutdown, owned])
      · exact .inr waiting
  | @abandon number made =>
      exact life.advance (life.oneShot.abandon number) (Teardown.later_abandon _ number)
        (Teardown.length_abandon _ number) rfl rfl rfl
  | outside surroundings frame silent =>
      have calls : s'.teardown.calls = s.teardown.calls := by rw [frame.teardown]
      have fired : s'.teardown.hasFired = s.teardown.hasFired := by rw [frame.teardown]
      exact life.advance (life.oneShot.congr calls fired) (.congr calls fired) (by rw [calls])
        frame.writer frame.reader frame.ownerCalls

theorem run (life : s.Lifecycle) (history : List Event) : (s.run history).Lifecycle :=
  run_invariant life (fun move life => life.move move) history

/-! ### The end -/

/-- Once the writer is done and no call waits, every call is over. -/
theorem hasEnded_of_finished (life : s.Lifecycle) (finished : s.writer = .finished)
    (settled : ∀ number ∈ s.ownerCalls, s.teardown.hasEnded number = true) (number : Nat)
    (made : number < s.teardown.calls.length) : s.teardown.hasEnded number = true := by
  by_contra unended
  rcases life.awaited number made (by simpa using unended) with owned | ⟨up, own⟩ | reading
  · exact unended (settled number owned)
  · rw [finished] at own
    contradiction
  · have idle := life.last finished
    rw [reading] at idle
    contradiction

end Lifecycle

end Session

end PeerWire

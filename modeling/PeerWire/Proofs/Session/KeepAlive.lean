import PeerWire.Proofs.Session.WriteOrder

/-!
When keep-alives are written. A writer that waits for something to write shows that it is
alive one interval after it wrote last, neither earlier nor later, and a message goes first
even if it is there only at that very moment.

That the writer is not late needs a clock that stops for it: `Punctual` says that no more
time passes while the writer waits than is left until the keep-alive.
-/

namespace PeerWire

/-- The moment of the next keep-alive, where the writer waits for something to write. -/
def WriterPhase.keepAliveAt? : WriterPhase → Option Nat
  | .idle keepAliveAt => some keepAliveAt
  | _ => none

/-- A timer for a moment that the clock can name goes off at that moment. -/
theorem Clock.timer_of_le {now wait : Nat} (named : now + wait ≤ last) :
    timer now wait = now + wait := by
  simp [timer, after?, named]

theorem Clock.eq_of_after? {now wait moment : Nat} (named : after? now wait = some moment) :
    moment = now + wait := by
  unfold after? at named
  split_ifs at named
  exact (Option.some.inj named).symm

namespace Session

/-- No more time passes than is left until the keep-alive that the writer waits for. -/
def Punctual (s : Session) (event : Event) : Prop :=
  ∀ keepAliveAt ∈ s.writer.keepAliveAt?, event.duration ≤ keepAliveAt - s.now

instance (s : Session) (event : Event) : Decidable (s.Punctual event) :=
  inferInstanceAs (Decidable (∀ keepAliveAt ∈ s.writer.keepAliveAt?, _))

/-- The moment at which the writer last completed a write along a history. -/
def lastWrite (s : Session) (history : List Event) : Option Nat :=
  trace (fun last s event => if s.writes (s.after event) = [] then last else some s.now) none
    s history

/-- The keep-alive is due: the writer waits, one interval has passed since `last`, and
neither a message nor a teardown goes first. -/
structure FallsDue (s : Session) (last : Option Nat) : Prop where
  waiting : s.writer = .idle s.now
  interval : ∃ written, last = some written ∧ s.now = written + s.settings.keepAlive
  empty : s.outbox.slot.items = []
  alive : s.teardown.hasFired = false

section Steps

variable {s s' : Session} {event : Event}

/-- What an event means for the next keep-alive. -/
inductive Beat (s : Session) (event : Event) (s' : Session) : Prop where
  /-- The writer stays where it is. -/
  | still (writer : s'.writer = s.writer) (unwritten : s.writes s' = [])
  /-- A write is done, and the writer waits for the next. -/
  | done (grown : s.writes s' ≠ []) (own : event = .task .writer)
      (waiting : s'.writer = .idle (s.now + s.settings.keepAlive))
  /-- The writer takes up a keep-alive. -/
  | due {keepAliveAt : Nat} (unwritten : s.writes s' = []) (own : event = .task .writer)
      (waiting : s.writer = .idle keepAliveAt) (come : keepAliveAt ≤ s.now)
      (empty : s.outbox.slot.items = []) (alive : s.teardown.hasFired = false)
      (busy : s'.writer.keepAliveAt? = none)
  /-- The writer does something else. -/
  | other (busy : s'.writer.keepAliveAt? = none) (job : s'.writer.job? ≠ some .keepAlive)

theorem WriterMove.beat (move : WriterMove s s')
    (named : s.now + s.settings.keepAlive ≤ Clock.last) : Beat s (.task .writer) s' := by
  cases move with
  | announced =>
      refine .done (by simp [writes, record]) rfl ?_
      exact congrArg WriterPhase.idle (Clock.timer_of_le named)
  | wrote phase further unbroken moment =>
      refine .done (by simp [writes, record]) rfl ?_
      exact congrArg WriterPhase.idle (Clock.eq_of_after? moment)
  | keepAlive phase alive empty due =>
      exact .due (by simp [writes, beginWrite]) rfl phase due empty alive rfl
  | calling => exact .still rfl (by simp [writes])
  | @released call up => cases up <;> exact .other rfl (fun taken => by cases taken)
  | _ => exact .other rfl (fun taken => by cases taken)

theorem Move.beat (move : Move s event s') (named : s.now + s.settings.keepAlive ≤ Clock.last) :
    Beat s event s' := by
  have still : s'.transport.outbound.written = s.transport.outbound.written →
      s.writes s' = [] := by
    intro unwritten
    simp [writes, unwritten]
  cases move with
  | writer move => exact move.beat named
  | reader move => exact .still move.frame.writer (still (by rw [move.frame.outbound]))
  | outside surroundings frame silent => exact .still frame.writer (still frame.written)
  | _ => exact .still rfl (still rfl)

end Steps

/-! ### The cadence -/

section Runs

variable {s : Session} {past history : List Event} {event : Event}

theorem lastWrite_concat (s : Session) (past : List Event) (event : Event) :
    s.lastWrite (past ++ [event]) =
      if (s.run past).writes ((s.run past).after event) = [] then s.lastWrite past
      else some (s.run past).now :=
  trace_concat _ none s past event

/-- Where the writer waits, it has done so since it wrote last and for one interval at most;
and a keep-alive in its hands was due when it took it up, and is still the first thing to be
written since. -/
structure Cadence (s : Session) (history : List Event) : Prop where
  waiting : ∀ keepAliveAt, (s.run history).writer = .idle keepAliveAt →
    ∃ written, s.lastWrite history = some written ∧
      keepAliveAt = written + s.settings.keepAlive ∧ (s.run history).now ≤ keepAliveAt
  writing : ∀ deadline, (s.run history).writer = .writing .keepAlive deadline →
    ∃ past later, history = past ++ .task .writer :: later ∧
      (s.run past).FallsDue (s.lastWrite past) ∧ s.lastWrite history = s.lastWrite past

/-- A writer that waits waits until the moment of the keep-alive at most. -/
theorem now_after_le {keepAliveAt : Nat} (punctual : s.Punctual event)
    (waiting : s.writer = .idle keepAliveAt) (early : s.now ≤ keepAliveAt) :
    (s.after event).now ≤ keepAliveAt := by
  have left : event.duration ≤ keepAliveAt - s.now := punctual keepAliveAt (by rw [waiting]; rfl)
  rw [now_after]
  omega

theorem Cadence.concat (cadence : s.Cadence past) (punctual : (s.run past).Punctual event)
    (named : (s.run past).now + s.settings.keepAlive ≤ Clock.last) :
    s.Cadence (past ++ [event]) := by
  have settings := (settings_run s past).1
  have beat := (after_move (s.run past) event).beat (settings ▸ named)
  constructor
  · intro keepAliveAt
    rw [run_concat, lastWrite_concat]
    intro waiting
    cases beat with
    | still writer unwritten =>
        rw [writer] at waiting
        obtain ⟨written, last, moment, early⟩ := cadence.waiting keepAliveAt waiting
        rw [if_pos unwritten]
        exact ⟨written, last, moment, now_after_le punctual waiting early⟩
    | done grown own idle =>
        rw [if_neg grown]
        rw [idle, settings] at waiting
        cases waiting
        refine ⟨_, rfl, rfl, ?_⟩
        subst own
        rw [now_after]
        exact Nat.le_add_right _ _
    | due unwritten own before come empty alive busy =>
        rw [waiting] at busy
        contradiction
    | other busy job =>
        rw [waiting] at busy
        contradiction
  · intro deadline
    rw [run_concat, lastWrite_concat]
    intro writing
    cases beat with
    | still writer unwritten =>
        rw [writer] at writing
        obtain ⟨earlier, later, rfl, due, last⟩ := cadence.writing deadline writing
        rw [if_pos unwritten]
        exact ⟨earlier, later ++ [event], by simp, due, last⟩
    | done grown own idle =>
        rw [writing] at idle
        contradiction
    | @due keepAliveAt unwritten own before come empty alive busy =>
        obtain ⟨written, last, moment, early⟩ := cadence.waiting keepAliveAt before
        have now : (s.run past).now = keepAliveAt := Nat.le_antisymm early come
        subst own
        rw [if_pos unwritten]
        refine ⟨past, [], rfl, ⟨by rw [before, now], ⟨written, last, ?_⟩, empty, alive⟩, rfl⟩
        rw [now, moment, settings]
    | other busy job =>
        rw [writing] at job
        exact absurd rfl job

theorem Cadence.run (fresh : s.writer.isBringingUp = true) (history : List Event)
    (punctual : Along Punctual s history)
    (named : (s.run history).now + s.settings.keepAlive ≤ Clock.last) : s.Cadence history := by
  induction history using List.reverseRecOn with
  | nil =>
      constructor
      · intro keepAliveAt waiting
        rw [run_nil] at waiting
        rw [waiting] at fresh
        contradiction
      · intro deadline writing
        rw [run_nil] at writing
        rw [writing] at fresh
        contradiction
  | append_singleton past event ih =>
      rw [run_concat] at named
      rw [along_concat] at punctual
      have forward := now_le_after (s.run past) event
      have before : (s.run past).now + s.settings.keepAlive ≤ Clock.last := by omega
      exact (ih punctual.1 before).concat punctual.2 before

end Runs

/-- A writer does not wait past the moment of the keep-alive: it goes on at once. -/
theorem step_writer_of_due {s : Session} {keepAliveAt : Nat}
    (waiting : s.writer = .idle keepAliveAt) (come : keepAliveAt ≤ s.now) :
    s.step .writer ≠ none := by
  simp only [step, stepWriter, waiting, stepIdle, if_pos come]
  split
  · exact Option.some_ne_none _
  · split
    · exact Option.some_ne_none _
    · split <;> exact Option.some_ne_none _

/-- Keep-alives keep their cadence. On a clock that can name the moments, and while the timer
of the writer goes off when it is due, a writer that waits wrote last no longer ago than one
interval, and goes on as soon as the interval is over. What it writes is a keep-alive only if
nothing had been written for exactly one interval when it took the keep-alive up, and no
message was in the slot then. -/
theorem keepAlive_cadence (settings : Settings) (identity : Identity) (addr : String)
    (pieces : UInt64) (field : Bitfield) (capacities : Capacities) (transport : Transport)
    (history : List Event)
    (punctual : Along Punctual (Session.start settings identity addr pieces field capacities
      transport) history)
    (named : ((Session.start settings identity addr pieces field capacities transport).run
      history).now + settings.keepAlive ≤ Clock.last) :
    let s := Session.start settings identity addr pieces field capacities transport
    let now := s.run history
    (∀ keepAliveAt, now.writer = .idle keepAliveAt →
        ∃ written, s.lastWrite history = some written ∧
          keepAliveAt = written + settings.keepAlive ∧ now.now ≤ keepAliveAt ∧
          (now.now = keepAliveAt → now.step .writer ≠ none)) ∧
      ∀ deadline, now.writer = .writing .keepAlive deadline →
        ∃ past later, history = past ++ .task .writer :: later ∧
          (s.run past).FallsDue (s.lastWrite past) ∧
          s.lastWrite history = s.lastWrite past := by
  intro s now
  have cadence : s.Cadence history := Cadence.run rfl history punctual named
  refine ⟨?_, cadence.writing⟩
  intro keepAliveAt waiting
  obtain ⟨written, last, moment, early⟩ := cadence.waiting keepAliveAt waiting
  exact ⟨written, last, moment, early, fun come => step_writer_of_due waiting come.ge⟩

/-- A message is written in the middle of the first interval; the keep-alive comes one interval
after that. -/
theorem keepAlive_cadence_relaying :
    let s := Session.start .default default "10.0.0.7:6881" 2 (.empty 2) ⟨1, 4, 4⟩
      (.adopt default)
    let history : List Event := [.task .writer, .task .writer, .wait 60000, .respond .choke,
      .task .outbox, .task .outbox, .task .writer, .task .writer, .wait 120000, .task .writer]
    (s.run history).now = 180000 ∧ (s.run history).writer = .writing .keepAlive none ∧
      s.lastWrite history = some 60000 ∧
      ∃ past later, history = past ++ .task .writer :: later ∧
        (s.run past).FallsDue (s.lastWrite past) := by
  intro s history
  obtain ⟨-, due⟩ := keepAlive_cadence .default default "10.0.0.7:6881" 2 (.empty 2) ⟨1, 4, 4⟩
    (.adopt default) history (by decide) (by decide)
  have writing : (s.run history).writer = .writing .keepAlive none := by decide
  obtain ⟨past, later, split, falls, -⟩ := due none writing
  exact ⟨by decide, writing, by decide, past, later, split, falls⟩

end Session

end PeerWire

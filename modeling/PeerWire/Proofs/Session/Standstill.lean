import PeerWire.CommandLine.Arguments
import PeerWire.Proofs.Outbox
import PeerWire.Proofs.Session.Lifecycle

/-!
Where a teardown can come to a standstill. The tasks wait for one another: the writer for
the reader, either of them for a call of its own, and whoever sends into the outbox for the
outbox. `HeldUp` lists what may hold them all up once a call for the end has been made: a
write or a close that the wire does not complete, or the first call, which waits for room to
hand its marker over, and no longer than its deadline, or for room to report. There is
nothing else, and whoever waits to send into the outbox is not held up at all.

A connection shows itself as closed once the writer and the outbox's task are gone. The
writer is to wait for the reader before it goes, so that nobody is left by then; a writer that
crashes waits for nobody, and leaves the reader behind.
-/

namespace PeerWire

/-- A moment that the clock cannot name does not get any nearer. -/
theorem Clock.after?_eq_none_of_le {now later wait : Nat} (unnamed : Clock.after? now wait = none)
    (le : now ≤ later) : Clock.after? later wait = none := by
  unfold Clock.after? at *
  split_ifs at unnamed with named
  rw [if_neg]
  omega

namespace Teardown

/-- A call waits for room. -/
inductive WaitsForRoom (t : Teardown) (number now : Nat) : Prop where
  | marking {reason : Ending} {deadline : Nat}
      (phase : t.calls[number]? = some { reason, phase := .marking deadline })
      (full : (t.deliveries.send (.caller number) (.disconnected t.addr)).1 = .full)
      (undue : now < deadline)
  | reporting {reason : Ending} (phase : t.calls[number]? = some { reason, phase := .reporting })
      (full : (t.exits.send (.caller number) { addr := t.addr, reason }).1 = .full)

/-- A call that can take no step is over, or waits for room. -/
theorem waitsForRoom_of_stuck {t : Teardown} {number now : Nat} (made : number < t.calls.length)
    (open_ : t.hasEnded number = false) (stuck : t.advance number now = none) :
    t.WaitsForRoom number now := by
  have found := List.getElem?_eq_getElem made
  generalize t.calls[number] = call at found
  obtain ⟨reason, phase⟩ := call
  have working : phase.isOver ≠ true := by
    intro ended
    rw [(hasEnded_iff found).mpr ended] at open_
    contradiction
  unfold advance at stuck
  rw [found] at stuck
  cases phase with
  | marking deadline =>
      dsimp only at stuck
      split at stuck
      · contradiction
      · contradiction
      · rename_i full
        split_ifs at stuck with due
        exact .marking found full (Nat.not_le.mp due)
  | reporting =>
      dsimp only at stuck
      split at stuck
      · contradiction
      · contradiction
      · rename_i full
        exact .reporting found full
  | returned acted => exact absurd rfl working
  | abandoned => exact absurd rfl working

/-- A call does not wait for room where nobody listens. -/
theorem not_waitsForRoom {t : Teardown} {number now : Nat}
    (undelivered : t.deliveries.isOpen = false) (unheard : t.exits.isOpen = false) :
    ¬ t.WaitsForRoom number now := by
  rintro (⟨phase, full, undue⟩ | ⟨phase, full⟩)
  · rw [(t.deliveries.send_eq_closed_iff _ _).mpr undelivered] at full
    contradiction
  · rw [(t.exits.send_eq_closed_iff _ _).mpr unheard] at full
    contradiction

end Teardown

namespace Session

variable {s s' : Session} {event : Event}

/-! ### Calls of the tasks -/

/-- What a task waits for as its own call is a call that has been made. -/
structure CallsMade (s : Session) : Prop where
  writer : ∀ call up, s.writer = .tearingDown call up → call < s.teardown.calls.length
  reader : ∀ call, s.reader = .tearingDown call → call < s.teardown.calls.length

namespace CallsMade

/-- A task goes on to wait for nothing but the call that it makes. -/
theorem step (made : s.CallsMade) (move : Move s event s')
    (writer : ∀ call up, s'.writer = .tearingDown call up →
      s'.writer = s.writer ∨ call < s'.teardown.calls.length)
    (reader : ∀ call, s'.reader = .tearingDown call →
      s'.reader = s.reader ∨ call < s'.teardown.calls.length) : s'.CallsMade := by
  have grown := move.teardown_turn.length_le
  constructor
  · intro call up own
    rcases writer call up own with same | new
    · exact Nat.lt_of_lt_of_le (made.writer call up (same ▸ own)) grown
    · exact new
  · intro call own
    rcases reader call own with same | new
    · exact Nat.lt_of_lt_of_le (made.reader call (same ▸ own)) grown
    · exact new

theorem failWriter (made : s.CallsMade) {reason : Ending} {up : Bool}
    (move : Move s (.task .writer) (s.failWriter reason up)) :
    (s.failWriter reason up).CallsMade := by
  refine made.step move ?_ (fun _ _ => .inl rfl)
  intro call up' own
  cases own
  right
  exact Nat.lt_of_lt_of_eq (Nat.lt_succ_self _) (Teardown.length_trigger _ _ _).symm

theorem writerMove (made : s.CallsMade) (move : WriterMove s s') : s'.CallsMade := by
  have moved : Move s (.task .writer) s' := .writer move
  cases move with
  | abort => exact made.failWriter moved
  | failed => exact made.failWriter moved
  | dryUp => exact made.failWriter moved
  | calling => exact made.step moved (fun _ _ _ => .inl rfl) (fun _ _ => .inl rfl)
  | @released call up => cases up <;> exact made.step moved nofun (fun _ _ => .inl rfl)
  | announced => exact made.step moved nofun nofun
  | _ => exact made.step moved nofun (fun _ _ => .inl rfl)

theorem readerMove (made : s.CallsMade) (move : ReaderMove s s') : s'.CallsMade := by
  have moved : Move s (.task .reader) s' := .reader move
  refine made.step moved (fun _ _ _ => .inl move.frame.writer) ?_
  intro call own
  cases move.turn with
  | onward before alive after teardown =>
      rw [own] at after
      contradiction
  | failed before alive after teardown =>
      rw [after] at own
      cases own
      rw [teardown, Teardown.length_trigger]
      exact .inr (Nat.lt_succ_self _)
  | stopped before after teardown =>
      rw [after] at own
      contradiction
  | calling before after move => exact .inl after

theorem move (made : s.CallsMade) (move : Move s event s') : s'.CallsMade := by
  cases move with
  | writer move => exact made.writerMove move
  | reader move => exact made.readerMove move
  | wait => exact made
  | outbox turn => exact made.step (.outbox turn) (fun _ _ _ => .inl rfl) (fun _ _ => .inl rfl)
  | call owned move =>
      exact made.step (.call owned move) (fun _ _ _ => .inl rfl) (fun _ _ => .inl rfl)
  | shutdown => exact made.step .shutdown (fun _ _ _ => .inl rfl) (fun _ _ => .inl rfl)
  | abandon owned => exact made.step (.abandon owned) (fun _ _ _ => .inl rfl) (fun _ _ => .inl rfl)
  | outside surroundings frame silent =>
      exact made.step (.outside surroundings frame silent) (fun _ _ _ => .inl frame.writer)
        (fun _ _ => .inl frame.reader)

theorem run (made : s.CallsMade) (history : List Event) : (s.run history).CallsMade :=
  run_invariant made (fun move made => made.move move) history

end CallsMade

/-! ### The way into the outbox -/

theorem Move.shut (move : Move s event s')
    (before : s.outbox.hasStopped = true → s.outbox.incoming.isOpen = false)
    (stopped : s'.outbox.hasStopped = true) : s'.outbox.incoming.isOpen = false := by
  cases move with
  | outbox turn =>
      obtain ⟨running, moved, move, rfl | ⟨rfl, -⟩⟩ := Outbox.outboxMove_of_turn turn
      · exact move.shut running stopped
      · rfl
  | writer move =>
      cases move with
      | @released call up => cases up <;> exact before stopped
      | _ => exact before stopped
  | reader move =>
      rw [move.frame.outbox] at stopped
      rw [move.frame.incoming]
      exact before stopped
  | outside surroundings frame silent =>
      rw [frame.outbox] at stopped
      rw [frame.incoming]
      exact before stopped
  | _ => exact before stopped

/-- Once the outbox's task has stopped, nothing gets in. -/
theorem shut_run (running : s.outbox.hasStopped = false) (history : List Event)
    (stopped : (s.run history).outbox.hasStopped = true) :
    (s.run history).outbox.incoming.isOpen = false := by
  induction history using List.reverseRecOn with
  | nil => exact absurd stopped (by simp [running])
  | append_singleton past event ih =>
      rw [run_concat] at stopped ⊢
      exact (after_move _ event).shut ih stopped

/-! ### A standstill -/

/-- What holds a connection up that is to end. -/
inductive HeldUp (s : Session) : Prop where
  /-- The wire takes its time over a write. -/
  | writing {job : WriteJob} {deadline : Option Nat} (phase : s.writer = .writing job deadline)
      (shut : s.transport.outbound.isOpen = false) (undue : s.isDue deadline = false)
  /-- The wire takes its time to close. -/
  | closing {deadline : Option Nat} (phase : s.writer = .closing deadline)
      (dialed : s.transport.adopted = none) (shut : s.transport.outbound.isOpen = false)
      (undue : s.isDue deadline = false)
  /-- The call that tears the connection down waits for room. -/
  | calling (waits : s.teardown.WaitsForRoom 0 s.now)

/-- The writer has returned, and so has the reader if it was ever started. -/
def IsOver (s : Session) : Prop :=
  (s.writer = .finished ∨ s.writer = .crashed) ∧ s.reader.isIdle = true

/-- A task that waits for its own call waits for the first one, which waits for room. -/
theorem waitsForRoom_of_call (one : s.teardown.OneShot) {call : Nat}
    (made : call < s.teardown.calls.length)
    (stuck : (if s.teardown.hasEnded call then some s' else s.advanceCall call) = none) :
    s.teardown.WaitsForRoom 0 s.now := by
  split at stuck
  · contradiction
  · rename_i open_
    have unended : s.teardown.hasEnded call = false := by simpa using open_
    obtain rfl := one.eq_zero unended made
    exact Teardown.waitsForRoom_of_stuck made unended (Option.map_eq_none_iff.mp stuck)

section Stuck

variable (fired : s.teardown.hasFired = true)

include fired

/-- The outbox's task has nothing to wait for. -/
theorem hasStopped_of_stuck (stuck : s.stepOutbox = none) : s.outbox.hasStopped = true := by
  by_contra running
  have waits := Outbox.waits_of_turn (by simpa using running) (Option.map_eq_none_iff.mp stuck)
  rw [fired] at waits
  exact nomatch waits.torn

/-- A reader that can take no step is not at work, or its own call holds it up. -/
theorem reader_of_stuck (one : s.teardown.OneShot) (made : s.CallsMade)
    (stuck : s.stepReader = none) :
    s.reader.isIdle = true ∨ s.teardown.WaitsForRoom 0 s.now := by
  unfold stepReader at stuck
  cases phase : s.reader with
  | absent => exact .inl rfl
  | finished => exact .inl rfl
  | reading deadline =>
      rw [phase] at stuck
      dsimp only at stuck
      rw [stepRead, if_pos fired] at stuck
      contradiction
  | handling errand deadline =>
      rw [phase] at stuck
      dsimp only at stuck
      rw [stepHandling, if_pos fired] at stuck
      contradiction
  | tearingDown call =>
      rw [phase] at stuck
      exact .inr (waitsForRoom_of_call one (made.reader call phase) stuck)

/-- A writer that can take no step has returned, or is held up, or waits for a reader that
is. -/
theorem writer_of_stuck (one : s.teardown.OneShot) (made : s.CallsMade)
    (stuck : s.stepWriter = none) (idle : s.reader.isIdle = true) :
    (s.writer = .finished ∨ s.writer = .crashed) ∨ s.HeldUp := by
  unfold stepWriter at stuck
  cases phase : s.writer with
  | starting => rw [phase] at stuck; contradiction
  | dialing deadline =>
      rw [phase] at stuck
      dsimp only at stuck
      rw [stepDial, if_pos fired] at stuck
      contradiction
  | greeting deadline sent =>
      rw [phase] at stuck
      dsimp only at stuck
      rw [stepGreeting, if_pos fired] at stuck
      contradiction
  | writing job deadline =>
      rw [phase] at stuck
      dsimp only at stuck
      unfold stepWrite at stuck
      split at stuck
      · split at stuck <;> contradiction
      · rename_i shut
        split_ifs at stuck with due
        exact .inr (.writing phase (by simpa using shut) (by simpa using due))
  | idle keepAliveAt =>
      rw [phase] at stuck
      dsimp only at stuck
      rw [stepIdle, if_pos fired] at stuck
      contradiction
  | tearingDown call up =>
      rw [phase] at stuck
      exact .inr (.calling (waitsForRoom_of_call one (made.writer call up phase) stuck))
  | closing deadline =>
      rw [phase] at stuck
      dsimp only at stuck
      unfold stepClose at stuck
      split_ifs at stuck with done
      simp only [Bool.or_eq_true, not_or, Bool.not_eq_true] at done
      obtain ⟨⟨unadopted, shut⟩, undue⟩ := done
      have dialed : s.transport.adopted = none :=
        Option.not_isSome_iff_eq_none.mp (by simp [unadopted])
      exact .inr (.closing phase dialed shut undue)
  | joining =>
      rw [phase] at stuck
      dsimp only at stuck
      cases reader : s.reader with
      | absent => rw [reader] at stuck; contradiction
      | finished => rw [reader] at stuck; contradiction
      | _ => rw [reader] at idle; contradiction
  | finished => exact .inl (.inl rfl)
  | crashed => exact .inl (.inr rfl)

end Stuck

/-! ### A connection that shows itself as closed -/

/-- The writer crashes after a write, and in no other step. -/
theorem WriterMove.unnamed (move : WriterMove s s') (crashed : s'.writer = .crashed) :
    Clock.after? s.now s.settings.keepAlive = none := by
  cases move with
  | crash phase further unbroken unnamed => exact unnamed
  | calling phase move => rw [phase] at crashed; contradiction
  | @released call up phase ended => cases up <;> contradiction
  | _ => contradiction

theorem Move.unnamed (move : Move s event s') (sound : s.writer ≠ .crashed)
    (crashed : s'.writer = .crashed) : Clock.after? s.now s.settings.keepAlive = none := by
  cases move with
  | writer move => exact move.unnamed crashed
  | reader move => exact absurd (move.frame.writer.symm.trans crashed) sound
  | outside surroundings frame silent => exact absurd (frame.writer.symm.trans crashed) sound
  | _ => exact absurd crashed sound

/-- A writer that has crashed did so over a moment that the clock cannot name now either. -/
theorem unnamed_run (sound : s.writer ≠ .crashed) (history : List Event)
    (crashed : (s.run history).writer = .crashed) :
    Clock.after? (s.run history).now s.settings.keepAlive = none := by
  induction history using List.reverseRecOn with
  | nil => exact absurd crashed sound
  | append_singleton past event ih =>
      rw [run_concat] at crashed ⊢
      refine Clock.after?_eq_none_of_le ?_ (now_le_after (s.run past) event)
      by_cases before : (s.run past).writer = .crashed
      · exact ih before
      · have unnamed := (after_move (s.run past) event).unnamed before crashed
        rwa [(settings_run s past).1] at unnamed

theorem stepReader_of_isIdle (idle : s.reader.isIdle = true) : s.stepReader = none := by
  unfold stepReader
  cases phase : s.reader with
  | absent => rfl
  | finished => rfl
  | _ => rw [phase] at idle; contradiction

/-- Only a reader at work, or one that waits for its own call, takes a step. -/
theorem ReaderMove.not_isIdle (move : ReaderMove s s') : s.reader.isIdle = false := by
  cases move.turn with
  | onward before => exact ReaderPhase.not_isIdle before
  | failed before => exact ReaderPhase.not_isIdle before
  | stopped before =>
      rcases before with ⟨atWork, -⟩ | ⟨call, own, -⟩
      · exact ReaderPhase.not_isIdle atWork
      · rw [own]
        rfl
  | calling before =>
      rw [before]
      rfl

/-- A connection whose writer is gone and whose reader is idle stays as it is. -/
theorem IsOver.move (rests : s.IsOver) (move : Move s event s') : s'.IsOver := by
  cases move with
  | writer move => exact absurd rests.1 move.not_gone
  | reader move =>
      have busy := move.not_isIdle
      rw [rests.2] at busy
      contradiction
  | outside surroundings frame silent =>
      exact ⟨by rw [frame.writer]; exact rests.1, by rw [frame.reader]; exact rests.2⟩
  | _ => exact rests

theorem IsOver.run (rests : s.IsOver) (later : List Event) : (s.run later).IsOver :=
  run_invariant rests (fun move rests => rests.move move) later

/-- A reader that is not idle can be made to take a step: a call for the end sets it free, and
its own call goes on once nobody listens to what it has to say. -/
theorem exists_stepReader (one : s.teardown.OneShot) (made : s.CallsMade)
    (busy : s.reader.isIdle = false) : ∃ later, (s.run later).stepReader ≠ none := by
  refine ⟨[.shutdown, .closeDeliveries, .closeExits], ?_⟩
  intro stuck
  let ending := s.run [.shutdown, .closeDeliveries, .closeExits]
  have fired : ending.teardown.hasFired = true := Teardown.hasFired_trigger _ _ _
  have stays : ending.reader = s.reader := rfl
  have asked : ending.teardown.OneShot := (one.trigger .cancelled s.now).congr rfl rfl
  rcases reader_of_stuck fired asked (made.run _) stuck with idle | waits
  · rw [stays, busy] at idle
    contradiction
  · exact Teardown.not_waitsForRoom rfl rfl waits

/-- Where the writer is gone, the reader takes another step at some time exactly if it is not
idle. -/
theorem exists_stepReader_iff (one : s.teardown.OneShot) (made : s.CallsMade)
    (gone : s.writer = .finished ∨ s.writer = .crashed) :
    (∃ later, (s.run later).stepReader ≠ none) ↔ s.reader.isIdle = false := by
  constructor
  · rintro ⟨later, step⟩
    by_contra idle
    have rests : s.IsOver := ⟨gone, by simpa using idle⟩
    exact step (stepReader_of_isIdle (rests.run later).2)
  · exact exists_stepReader one made

/-- A teardown cannot deadlock. When a call for the end has been made and no task can take a
step, then the outbox's task has returned, and whoever sends into it, waiting in line or
not, is turned away for good. The writer and the reader have returned too, unless a write or
a close is still in progress on the wire or the call that tears the connection down waits
for room: for its marker, before the deadline of that hand-over, or for its report.

A connection that shows itself as closed has a reader that takes another step at some time
exactly if the writer has crashed while the reader was not idle. A writer crashes only over
the moment of a keep-alive that the clock cannot name; short of that, nobody is left. -/
theorem ended_or_held_up (settings : Settings) (identity : Identity) (addr : String)
    (pieces : UInt64) (field : Bitfield) (capacities : Capacities) (transport : Transport)
    (history : List Event) :
    let s := (Session.start settings identity addr pieces field capacities transport).run history
    (s.teardown.hasFired = true → s.stepOutbox = none → s.stepWriter = none →
      s.stepReader = none →
      s.outbox.hasStopped = true ∧
        (∀ party message, (s.post party (.answer message)).1 = .closed) ∧
        (∀ message, (s.respond message).1 = .closed) ∧
        (s.IsOver ∨ s.HeldUp)) ∧
      (s.isClosed = true → ((∃ later, (s.run later).stepReader ≠ none) ↔
        s.writer = .crashed ∧ s.reader.isIdle = false)) ∧
      (s.writer = .crashed → Clock.after? s.now settings.keepAlive = none) := by
  intro s
  let first := Session.start settings identity addr pieces field capacities transport
  have life : s.Lifecycle := (Lifecycle.start settings identity addr pieces field capacities
    transport).run history
  have made : s.CallsMade := CallsMade.run (s := first) ⟨nofun, nofun⟩ history
  refine ⟨?_, ?_, unnamed_run (s := first) nofun history⟩
  · intro fired outbox writer reader
    have stopped := hasStopped_of_stuck fired outbox
    have shut : s.outbox.incoming.isOpen = false := shut_run (s := first) rfl history stopped
    refine ⟨stopped, ?_, ?_, ?_⟩
    · intro party message
      exact (Mailbox.send_eq_closed_iff _ party message).mpr shut
    · intro message
      exact Mailbox.put_of_closed _ none message shut
    · rcases reader_of_stuck fired life.oneShot made reader with idle | waits
      · rcases writer_of_stuck fired life.oneShot made writer idle with done | held
        · exact .inl ⟨done, idle⟩
        · exact .inr held
      · exact .inr (.calling waits)
  · intro closed
    have gone : s.writer = .finished ∨ s.writer = .crashed := by
      unfold isClosed at closed
      split at closed
      · exact .inl ‹_›
      · exact .inr ‹_›
      · contradiction
    rw [exists_stepReader_iff life.oneShot made gone]
    constructor
    · intro busy
      refine ⟨gone.resolve_left ?_, busy⟩
      intro finished
      rw [life.last finished] at busy
      contradiction
    · exact And.right

/-- An interval of as many seconds as a word of 64 bits counts. Our field is announced on an
adopted wire, the remote has a piece for us, and the writer tells it that we are interested
and crashes. The remote lets us ask, and somebody answers our piece request: the outbox's task
finds nobody to hand the answer over to and returns, so that the connection shows itself as
closed. Nobody has called for the end, and the reader is still there: it takes up whatever
the remote sends. -/
theorem closed_while_reading :
    let settings := { Settings.default with keepAlive := Arguments.seconds 18446744073709551615 }
    let s := (Session.start settings ⟨default, default⟩ "10.0.0.7:6881" 4 (.empty 4) ⟨4, 16, 64⟩
      (.adopt default)).run
        [.task .writer, .task .writer, .remoteSends (.ok (.havePiece 3)), .task .reader,
          .task .reader, .task .outbox, .task .outbox, .task .writer, .task .writer,
          .remoteSends (.ok .unchoke), .task .reader, .task .reader, .takeRequests 1,
          .respond (.request ⟨3, 0, 16384⟩), .task .outbox, .task .outbox]
    let t := s.run [.remoteSends (.ok (.havePiece 2))]
    s.isClosed = true ∧ s.writer = .crashed ∧ s.teardown.hasFired = false ∧
      s.status.remotePieces = 1 ∧ t.isClosed = true ∧ t.stepReader ≠ none ∧
      (t.run [.task .reader, .task .reader]).status.remotePieces = 2 := by
  decide +kernel

end Session

end PeerWire

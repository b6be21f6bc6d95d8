import PeerWire.Proofs.Session.Lifecycle

/-!
When a connection is established, and what becomes of its wire. `Wired` ties the point at
which the writer stands to both: until the wire is up nothing is established, from then
on the connection is and stays established, and a writer that got that far closes the wire
once on its way out. A writer that a call for the end cuts off before leaves the wire as
it is, also when the wire was adopted.
-/

namespace PeerWire

/-- How far a writer has come with its wire. -/
inductive WireStage where
  /-- The wire is not up, and is not going to be once the task is on its way out. -/
  | down
  /-- The wire is up, and nobody has begun to close it. -/
  | up
  /-- The task has closed the wire, or is done without it. -/
  | out
deriving DecidableEq, Repr

/-- The stage of a writer at this point. -/
def WriterPhase.stage : WriterPhase → WireStage
  | .starting | .dialing _ | .greeting _ _ | .tearingDown _ false => .down
  | .writing _ _ | .idle _ | .tearingDown _ true | .crashed => .up
  | .closing _ | .joining | .finished => .out

theorem WriterPhase.stage_of_isBringingUp {phase : WriterPhase}
    (bringing : phase.isBringingUp = true) : phase.stage = .down := by
  cases phase <;> first | rfl | contradiction

namespace Session

variable {s s' : Session} {event : Event}

/-- Where the wire stands, by the point at which the writer does, when it had been closed
`before` times at the start. -/
inductive Wired (s : Session) (before : Nat) : Prop where
  | down (phase : s.writer.stage = .down) (unestablished : s.teardown.isEstablished = false)
      (absent : s.reader = .absent) (unclosed : s.transport.outbound.closes = before)
  | up (phase : s.writer.stage = .up) (established : s.teardown.isEstablished = true)
      (unclosed : s.transport.outbound.closes = before)
  | shut (phase : s.writer.stage = .out) (established : s.teardown.isEstablished = true)
      (closed : s.transport.outbound.closes = before + 1)
  /-- The task was done before the wire was up. -/
  | missed (phase : s.writer = .finished) (unestablished : s.teardown.isEstablished = false)
      (absent : s.reader = .absent) (unclosed : s.transport.outbound.closes = before)

/-! ### One event -/

theorem ReaderMove.isEstablished_eq (move : ReaderMove s s') :
    s'.teardown.isEstablished = s.teardown.isEstablished := by
  cases move.turn with
  | onward before alive after teardown => rw [teardown]
  | failed before alive after teardown => rw [teardown, Teardown.isEstablished_trigger]
  | stopped before after teardown => rw [teardown]
  | calling before after move => exact move.isEstablished_eq

/-- A connection is established by its writer only, and only while nobody has called for
the end. -/
theorem Move.isEstablished (move : Move s event s') :
    s'.teardown.isEstablished = s.teardown.isEstablished ∨
      event = .task .writer ∧ s.writer.isBringingUp = true ∧ s.teardown.hasFired = false ∧
        s'.teardown.hasFired = false ∧ s'.teardown.isEstablished = true := by
  cases move with
  | writer move =>
      cases move with
      | adopt phase alive sized adopted => exact .inr ⟨rfl, by rw [phase]; rfl, alive, alive, rfl⟩
      | welcome phase alive accepted => exact .inr ⟨rfl, by rw [phase]; rfl, alive, alive, rfl⟩
      | abort => exact .inl (Teardown.isEstablished_trigger _ _ _)
      | failed => exact .inl (Teardown.isEstablished_trigger _ _ _)
      | dryUp => exact .inl (Teardown.isEstablished_trigger _ _ _)
      | @released call up => cases up <;> exact .inl rfl
      | calling phase move => exact .inl move.isEstablished_eq
      | _ => exact .inl rfl
  | reader move => exact .inl move.isEstablished_eq
  | call made move => exact .inl move.isEstablished_eq
  | shutdown => exact .inl (Teardown.isEstablished_trigger _ _ _)
  | abandon made => exact .inl (Teardown.isEstablished_abandon _ _)
  | outside surroundings frame silent => exact .inl (by rw [frame.teardown])
  | _ => exact .inl rfl

/-- Whether a connection is established is settled once somebody has called for the end. -/
theorem isEstablished_run_of_fired (fired : s.teardown.hasFired = true) (history : List Event) :
    (s.run history).teardown.hasFired = true ∧
      (s.run history).teardown.isEstablished = s.teardown.isEstablished := by
  refine run_invariant (motive := fun t => t.teardown.hasFired = true ∧
    t.teardown.isEstablished = s.teardown.isEstablished) ⟨fired, rfl⟩ ?_ history
  rintro t t' event move ⟨fired, settled⟩
  refine ⟨move.teardown_turn.later.fired fired, ?_⟩
  rcases move.isEstablished with same | ⟨-, -, alive, -, -⟩
  · exact same.trans settled
  · rw [fired] at alive
    contradiction

namespace Wired

variable {before : Nat}

theorem start (settings : Settings) (identity : Identity) (addr : String) (pieces : UInt64)
    (field : Bitfield) (capacities : Capacities) (transport : Transport) :
    (Session.start settings identity addr pieces field capacities transport).Wired
      transport.outbound.closes :=
  .down rfl rfl rfl rfl

theorem of_down (wired : s.Wired before) (phase : s.writer.stage = .down) :
    s.teardown.isEstablished = false ∧ s.reader = .absent ∧
      s.transport.outbound.closes = before := by
  cases wired with
  | down _ unestablished absent unclosed => exact ⟨unestablished, absent, unclosed⟩
  | up other => rw [other] at phase; contradiction
  | shut other => rw [other] at phase; contradiction
  | missed other => rw [other] at phase; contradiction

theorem of_up (wired : s.Wired before) (phase : s.writer.stage = .up) :
    s.teardown.isEstablished = true ∧ s.transport.outbound.closes = before := by
  cases wired with
  | down other => rw [other] at phase; contradiction
  | up _ established unclosed => exact ⟨established, unclosed⟩
  | shut other => rw [other] at phase; contradiction
  | missed other => rw [other] at phase; contradiction

theorem of_out (wired : s.Wired before) (phase : s.writer.stage = .out)
    (going : s.writer ≠ .finished) :
    s.teardown.isEstablished = true ∧ s.transport.outbound.closes = before + 1 := by
  cases wired with
  | down other => rw [other] at phase; contradiction
  | up other => rw [other] at phase; contradiction
  | shut _ established closed => exact ⟨established, closed⟩
  | missed other => exact absurd other going

/-- Nothing that the wire depends on has changed. -/
theorem still (wired : s.Wired before) (writer : s'.writer = s.writer)
    (established : s'.teardown.isEstablished = s.teardown.isEstablished)
    (reader : s.reader = .absent → s'.reader = .absent)
    (closes : s'.transport.outbound.closes = s.transport.outbound.closes) : s'.Wired before := by
  cases wired with
  | down phase unestablished absent unclosed =>
      exact .down (writer ▸ phase) (established.trans unestablished) (reader absent)
        (closes.trans unclosed)
  | up phase up unclosed =>
      exact .up (writer ▸ phase) (established.trans up) (closes.trans unclosed)
  | shut phase up closed =>
      exact .shut (writer ▸ phase) (established.trans up) (closes.trans closed)
  | missed phase unestablished absent unclosed =>
      exact .missed (writer.trans phase) (established.trans unestablished) (reader absent)
        (closes.trans unclosed)

theorem writerMove (wired : s.Wired before) (move : WriterMove s s') : s'.Wired before := by
  cases move with
  | cut phase fired =>
      obtain ⟨unestablished, absent, unclosed⟩ :=
        wired.of_down (WriterPhase.stage_of_isBringingUp phase)
      exact .missed rfl unestablished absent unclosed
  | abort phase alive cause =>
      obtain ⟨unestablished, absent, unclosed⟩ :=
        wired.of_down (WriterPhase.stage_of_isBringingUp phase)
      exact .down rfl (by simpa [failWriter, trigger] using unestablished) absent unclosed
  | dial phase alive sized unadopted =>
      obtain ⟨unestablished, absent, unclosed⟩ := wired.of_down (by rw [phase]; rfl)
      exact .down rfl unestablished absent unclosed
  | connected phase alive up =>
      obtain ⟨unestablished, absent, unclosed⟩ := wired.of_down (by rw [phase]; rfl)
      exact .down rfl unestablished absent unclosed
  | greeted phase alive =>
      obtain ⟨unestablished, absent, unclosed⟩ := wired.of_down (by rw [phase]; rfl)
      exact .down rfl unestablished absent unclosed
  | adopt phase alive sized adopted =>
      obtain ⟨-, -, unclosed⟩ := wired.of_down (by rw [phase]; rfl)
      exact .up rfl rfl unclosed
  | welcome phase alive accepted =>
      obtain ⟨-, -, unclosed⟩ := wired.of_down (by rw [phase]; rfl)
      exact .up rfl rfl unclosed
  | announced phase unbroken =>
      obtain ⟨established, unclosed⟩ := wired.of_up (by rw [phase]; rfl)
      exact .up rfl established unclosed
  | wrote phase further unbroken =>
      obtain ⟨established, unclosed⟩ := wired.of_up (by rw [phase]; rfl)
      exact .up rfl established unclosed
  | crash phase further unbroken =>
      obtain ⟨established, unclosed⟩ := wired.of_up (by rw [phase]; rfl)
      exact .up rfl established unclosed
  | failed phase cause =>
      obtain ⟨established, unclosed⟩ := wired.of_up (by rw [phase]; rfl)
      exact .up rfl (by simpa [failWrite, failWriter, trigger] using established) unclosed
  | close phase fired =>
      obtain ⟨established, unclosed⟩ := wired.of_up (by rw [phase]; rfl)
      exact .shut rfl established (by simp [beginClose, unclosed])
  | relay phase alive front =>
      obtain ⟨established, unclosed⟩ := wired.of_up (by rw [phase]; rfl)
      exact .up rfl established unclosed
  | dryUp phase alive empty stopped =>
      obtain ⟨established, unclosed⟩ := wired.of_up (by rw [phase]; rfl)
      exact .up rfl (by simpa [failWriter, trigger] using established) unclosed
  | keepAlive phase alive empty due =>
      obtain ⟨established, unclosed⟩ := wired.of_up (by rw [phase]; rfl)
      exact .up rfl established unclosed
  | @released call up phase ended =>
      cases up with
      | false =>
          obtain ⟨unestablished, absent, unclosed⟩ := wired.of_down (by rw [phase]; rfl)
          exact .missed rfl unestablished absent unclosed
      | true =>
          obtain ⟨established, unclosed⟩ := wired.of_up (by rw [phase]; rfl)
          exact .shut rfl established (by simp [beginClose, unclosed])
  | calling phase move => exact wired.still rfl move.isEstablished_eq id rfl
  | closed phase =>
      obtain ⟨established, closed⟩ := wired.of_out (by rw [phase]; rfl) (by simp [phase])
      exact .shut rfl established closed
  | joined phase ended =>
      obtain ⟨established, closed⟩ := wired.of_out (by rw [phase]; rfl) (by simp [phase])
      exact .shut rfl established closed

theorem move (wired : s.Wired before) (move : Move s event s') : s'.Wired before := by
  cases move with
  | wait => exact wired
  | outbox turn => exact wired.still rfl rfl id rfl
  | writer move => exact wired.writerMove move
  | reader move =>
      have frame := move.frame
      exact wired.still frame.writer move.isEstablished_eq
        (fun absent => absurd absent move.started.1) (by rw [frame.outbound])
  | call made move => exact wired.still rfl move.isEstablished_eq id rfl
  | shutdown => exact wired.still rfl (Teardown.isEstablished_trigger _ _ _) id rfl
  | abandon made => exact wired.still rfl (Teardown.isEstablished_abandon _ _) id rfl
  | outside surroundings frame silent =>
      exact wired.still frame.writer (by rw [frame.teardown])
        (fun absent => frame.reader.trans absent) frame.closes

theorem run (wired : s.Wired before) (history : List Event) : (s.run history).Wired before :=
  run_invariant (motive := fun t => t.Wired before) wired (fun move wired => wired.move move) history

/-- Nobody reads before the connection is established. -/
theorem established_of_reader (wired : s.Wired before) (present : s.reader ≠ .absent) :
    s.teardown.isEstablished = true := by
  cases wired with
  | down _ _ absent => exact absurd absent present
  | up _ established => exact established
  | shut _ established => exact established
  | missed _ _ absent => exact absurd absent present

/-- The wire is never closed twice. -/
theorem closes_le (wired : s.Wired before) : s.transport.outbound.closes ≤ before + 1 := by
  cases wired <;> omega

/-- A writer that has ended has closed the wire if it was up, and only then. -/
theorem closes_of_isClosed (wired : s.Wired before) (closed : s.isClosed = true) :
    s.transport.outbound.closes = before + 1 ↔
      s.teardown.isEstablished = true ∧ s.writer ≠ .crashed := by
  have ended : s.writer = .finished ∨ s.writer = .crashed := by
    unfold isClosed at closed
    cases at_ : s.writer <;> simp [at_] at closed ⊢
  cases wired with
  | down phase =>
      rcases ended with finished | crashed
      · rw [finished] at phase; contradiction
      · rw [crashed] at phase; contradiction
  | up phase established unclosed =>
      rcases ended with finished | crashed
      · rw [finished] at phase; contradiction
      · simp [unclosed, crashed]
  | shut phase established shut =>
      rcases ended with finished | crashed
      · simp [shut, established, finished]
      · rw [crashed] at phase; contradiction
  | missed phase unestablished absent unclosed => simp [unclosed, unestablished]

end Wired

/-! ### An adopted wire -/

/-- A writer that is done with bringing the wire up does not begin again. -/
theorem Move.not_isBringingUp (move : Move s event s') (done : s.writer.isBringingUp = false) :
    s'.writer.isBringingUp = false := by
  cases move with
  | writer move =>
      cases move with
      | dial phase => rw [phase] at done; contradiction
      | connected phase => rw [phase] at done; contradiction
      | greeted phase => rw [phase] at done; contradiction
      | @released call up => cases up <;> rfl
      | calling => exact done
      | _ => rfl
  | reader move => rw [move.frame.writer]; exact done
  | outside surroundings frame silent => rw [frame.writer]; exact done
  | _ => exact done

theorem isEstablished_run_of_done (done : s.writer.isBringingUp = false) (history : List Event) :
    (s.run history).writer.isBringingUp = false ∧
      (s.run history).teardown.isEstablished = s.teardown.isEstablished := by
  refine run_invariant (motive := fun t => t.writer.isBringingUp = false ∧
    t.teardown.isEstablished = s.teardown.isEstablished) ⟨done, rfl⟩ ?_ history
  rintro t t' event move ⟨done, settled⟩
  refine ⟨move.not_isBringingUp done, ?_⟩
  rcases move.isEstablished with same | ⟨-, bringing, -⟩
  · exact same.trans settled
  · rw [done] at bringing
    contradiction

/-- Before the writer takes its first step nothing is established. -/
theorem run_before_writer (phase : s.writer = .starting)
    (fresh : s.teardown.isEstablished = false) {past : List Event}
    (unstepped : .task .writer ∉ past) :
    (s.run past).writer = .starting ∧ (s.run past).teardown.isEstablished = false ∧
      (s.run past).transport.adopted = s.transport.adopted := by
  induction past using List.reverseRecOn with
  | nil => exact ⟨phase, fresh, rfl⟩
  | append_singleton past event ih =>
      rw [List.mem_append, List.mem_singleton, not_or] at unstepped
      obtain ⟨before, now⟩ := unstepped
      obtain ⟨starting, unestablished, adopted⟩ := ih before
      rw [run_concat]
      have move := after_move (s.run past) event
      refine ⟨(move.writer_eq (Ne.symm now)).trans starting, ?_, move.settings.2.trans adopted⟩
      rcases move.isEstablished with same | ⟨writer, -⟩
      · exact same.trans unestablished
      · exact absurd writer.symm now

/-- On an adopted wire the writer's first step settles whether it comes up. -/
theorem adopted_first_step (phase : s.writer = .starting) {peerId : PeerId}
    (adopted : s.transport.adopted = some peerId) (fresh : s.teardown.isEstablished = false) :
    (s.after (.task .writer)).writer.isBringingUp = false ∧
      ((s.after (.task .writer)).teardown.isEstablished = true ↔
        s.teardown.hasFired = false ∧ s.field.pieces = s.pieces) := by
  have stepped : s.after (.task .writer) = s.startWriter := by
    simp [after, step, stepWriter, phase]
  rw [stepped]
  unfold startWriter
  by_cases fired : s.teardown.hasFired = true
  · rw [if_pos fired]
    exact ⟨rfl, by simp [stopWriter, fresh, fired]⟩
  · rw [if_neg fired]
    by_cases sized : s.field.pieces = s.pieces
    · rw [if_neg (not_not.mpr sized), adopted]
      exact ⟨rfl, by simp [establish, publish, beginWrite, Teardown.markEstablished, fired, sized]⟩
    · rw [if_pos sized]
      exact ⟨rfl, by simp [failWriter, trigger, fresh, sized]⟩

/-- An adopted wire is closed at most once. When the connection has come to its end it was
closed exactly if it had come up and the writer has not crashed; and it comes up exactly if
the writer takes its first step before anybody calls for the end and while our field is of
the swarm's size. -/
theorem adopted_closed_if_established (settings : Settings) (identity : Identity)
    (addr : String) (pieces : UInt64) (field : Bitfield) (capacities : Capacities)
    (peerId : PeerId) (history : List Event) :
    let s := Session.start settings identity addr pieces field capacities (.adopt peerId)
    (s.run history).transport.outbound.closes ≤ 1 ∧
      ((s.run history).isClosed = true → ((s.run history).transport.outbound.closes = 1 ↔
        (s.run history).teardown.isEstablished = true ∧ (s.run history).writer ≠ .crashed)) ∧
      ((s.run history).teardown.isEstablished = true ↔
        ∃ past later, history = past ++ .task .writer :: later ∧ .task .writer ∉ past ∧
          (s.run past).teardown.hasFired = false ∧
          (s.run past).field.pieces = (s.run past).pieces) := by
  intro s
  have wired : (s.run history).Wired 0 :=
    (Wired.start settings identity addr pieces field capacities (.adopt peerId)).run history
  refine ⟨wired.closes_le, wired.closes_of_isClosed, ?_⟩
  have split : ∀ past later, history = past ++ .task .writer :: later →
      s.run history = ((s.run past).after (.task .writer)).run later := by
    rintro past later rfl
    exact List.foldl_append
  have first : ∀ past later, history = past ++ .task .writer :: later → .task .writer ∉ past →
      ((s.run history).teardown.isEstablished = true ↔
        (s.run past).teardown.hasFired = false ∧
          (s.run past).field.pieces = (s.run past).pieces) := by
    intro past later history_eq unstepped
    obtain ⟨starting, fresh, adopted⟩ := run_before_writer (s := s) rfl rfl unstepped
    obtain ⟨done, established⟩ := adopted_first_step starting adopted fresh
    rw [split past later history_eq, (isEstablished_run_of_done done later).2]
    exact established
  constructor
  · intro established
    by_cases stepped : .task .writer ∈ history
    · obtain ⟨past, later, history_eq, unstepped⟩ := List.eq_append_cons_of_mem stepped
      exact ⟨past, later, history_eq, unstepped,
        (first past later history_eq unstepped).mp established⟩
    · obtain ⟨-, fresh, -⟩ := run_before_writer (s := s) rfl rfl stepped
      rw [fresh] at established
      contradiction
  · rintro ⟨past, later, history_eq, unstepped, cause⟩
    exact (first past later history_eq unstepped).mpr cause

/-- A call for the end that comes before the writer's first step leaves an adopted wire
open. -/
theorem adopted_left_open_when_cut :
    let s := Session.start .default default "192.168.1.7:6881" 4 (.empty 4) ⟨1, 4, 4⟩
      (.adopt default)
    let history : List Event := [.shutdown, .task (.call 0), .task .writer, .task .outbox]
    (s.run history).isClosed = true ∧ (s.run history).transport.outbound.closes ≠ 1 := by
  decide

end Session

end PeerWire

import PeerWire.Proofs.Outbox
import PeerWire.Proofs.Session.Lifecycle

/-!
The write queue serves a connection for as long as nothing ends it. Its task stops, and
its mailboxes close, only after a call for the end has been made or the writer has
crashed. Until then whatever is put into the queue gets there.
-/

namespace PeerWire.Session

/-- A call for the end has been made, or the writer has crashed. -/
def IsEnding (s : Session) : Prop :=
  s.teardown.hasFired = true ∨ s.writer = .crashed

/-- What has stopped or closed has done so because the connection ends. -/
structure Flowing (s : Session) : Prop where
  running : s.outbox.hasStopped = true → s.IsEnding
  listening : s.outbox.isListening = false → s.teardown.hasFired = true
  slot : s.outbox.slot.isOpen = false → s.IsEnding
  inputs : s.outbox.hasStopped = false →
    s.outbox.incoming.isOpen = true ∧ s.outbox.cancels.isOpen = true

section Steps

variable {s s' : Session} {event : Event}

/-- The connection itself counts as a sender until a call for the end has been made. -/
theorem Lifecycle.hasFired_of_hasSenders (life : s.Lifecycle) (senders : s.hasSenders = false) :
    s.teardown.hasFired = true := by
  have conversation : s.hasConversation = false := by
    unfold hasSenders at senders
    simp_all
  unfold hasConversation at conversation
  split at conversation
  · exact life.reader (by simp [ReaderPhase.isEnding, *])
  · refine life.writer ?_
    split at conversation
    · simp [WriterPhase.isEnding, *]
    · contradiction
  · contradiction

/-- A writer that has crashed never takes another step. -/
theorem Move.crashed (move : Move s event s') (crashed : s.writer = .crashed) :
    s'.writer = .crashed := by
  cases move with
  | writer move => exact absurd (.inr crashed) move.not_gone
  | reader move => exact move.frame.writer.trans crashed
  | outside surroundings frame silent => exact frame.writer.trans crashed
  | _ => exact crashed

theorem crashed_run (crashed : s.writer = .crashed) (history : List Event) :
    (s.run history).writer = .crashed :=
  run_invariant (motive := fun t => t.writer = .crashed) crashed Move.crashed history

theorem Move.isEnding (move : Move s event s') (ending : s.IsEnding) : s'.IsEnding := by
  rcases ending with fired | crashed
  · exact .inl (move.teardown_turn.later.fired fired)
  · exact .inr (move.crashed crashed)

theorem IsEnding.run (ending : s.IsEnding) (history : List Event) : (s.run history).IsEnding :=
  run_invariant ending Move.isEnding history

theorem alive_of_going (going : ¬ s.IsEnding) : s.teardown.hasFired = false := by
  by_contra fired
  exact going (.inl (by simpa using fired))

theorem not_isEnding (alive : s.teardown.hasFired = false) (sound : s.writer ≠ .crashed) :
    ¬ s.IsEnding := by
  rintro (fired | crashed)
  · rw [alive] at fired
    contradiction
  · exact sound crashed

namespace Flowing

/-- Until the connection ends, the task of the write queue runs. -/
theorem isRunning (flow : s.Flowing) (going : ¬ s.IsEnding) : s.outbox.hasStopped = false := by
  by_contra stopped
  exact going (flow.running (by simpa using stopped))

theorem isListening (flow : s.Flowing) (alive : s.teardown.hasFired = false) :
    s.outbox.isListening = true := by
  by_contra deaf
  rw [flow.listening (by simpa using deaf)] at alive
  contradiction

theorem start (settings : Settings) (identity : Identity) (addr : String) (pieces : UInt64)
    (field : Bitfield) (capacities : Capacities) (transport : Transport) :
    (Session.start settings identity addr pieces field capacities transport).Flowing where
  running := nofun
  listening := nofun
  slot := nofun
  inputs _ := ⟨rfl, rfl⟩

/-- The outbox's own flags stay, and the connection does not come back to life. -/
theorem of_flags (flow : s.Flowing) (move : Move s event s')
    (stopped : s'.outbox.hasStopped = s.outbox.hasStopped)
    (listening : s'.outbox.isListening = s.outbox.isListening)
    (slot : s'.outbox.slot.isOpen = s.outbox.slot.isOpen ∨ s'.IsEnding)
    (incoming : s'.outbox.incoming.isOpen = s.outbox.incoming.isOpen)
    (cancels : s'.outbox.cancels.isOpen = s.outbox.cancels.isOpen) : s'.Flowing where
  running := by rw [stopped]; exact fun ended => move.isEnding (flow.running ended)
  listening := by
    rw [listening]
    exact fun deaf => move.teardown_turn.later.fired (flow.listening deaf)
  slot closed := by
    rcases slot with same | ending
    · exact move.isEnding (flow.slot (same ▸ closed))
    · exact ending
  inputs := by rw [stopped, incoming, cancels]; exact flow.inputs

theorem outbox {box : Outbox} (flow : s.Flowing) (life : s.Lifecycle)
    (turn : ({ s.outbox with hasSenders := s.hasSenders } : Outbox).turn s.teardown.hasFired =
      some box) : ({ s with outbox := box } : Session).Flowing := by
  obtain ⟨running, moved, move, settled⟩ := Outbox.outboxMove_of_turn turn
  obtain ⟨slot, stopped, listening, inputs⟩ := move.flags running
  have closes : moved.slot.isOpen = false → s.IsEnding := fun closed =>
    flow.slot (slot.symm.trans closed)
  have stops : moved.hasStopped = true → s.IsEnding := fun ended =>
    (stopped ended).elim .inl flow.slot
  have deaf : moved.isListening = false → s.teardown.hasFired = true := fun silent =>
    (listening silent).elim flow.listening life.hasFired_of_hasSenders
  rcases settled with rfl | ⟨rfl, silent, _⟩
  · refine ⟨stops, deaf, closes, ?_⟩
    intro still
    obtain ⟨incoming, cancels⟩ := inputs still
    have open_ := flow.inputs running
    exact ⟨incoming.trans open_.1, cancels.trans open_.2⟩
  · exact ⟨fun _ => .inl (deaf silent), deaf, closes, nofun⟩

theorem writer (flow : s.Flowing) (life : s.Lifecycle) (move : WriterMove s s') : s'.Flowing := by
  have moved : Move s (.task .writer) s' := .writer move
  have closing : ∀ u : Session, Move s (.task .writer) (u.stopWriter .finished) →
      u.outbox = s.outbox → (u.stopWriter .finished).IsEnding →
      (u.stopWriter .finished).Flowing := by
    intro u moved same ending
    refine flow.of_flags moved ?_ ?_ (.inr ending) ?_ ?_ <;> simp [stopWriter, same]
  cases move with
  | cut phase fired => exact closing s moved rfl (.inl fired)
  | crash phase further unbroken => exact flow.of_flags moved rfl rfl (.inr (.inr rfl)) rfl rfl
  | @released call up phase ended =>
      cases up with
      | false => exact closing s moved rfl (.inl (life.writer (by rw [phase]; rfl)))
      | true => exact flow.of_flags moved rfl rfl (.inl rfl) rfl rfl
  | joined phase ended => exact closing s moved rfl (.inl (life.writer (by rw [phase]; rfl)))
  | _ => exact flow.of_flags moved rfl rfl (.inl rfl) rfl rfl

theorem move (flow : s.Flowing) (life : s.Lifecycle) (move : Move s event s') : s'.Flowing := by
  cases move with
  | wait => exact flow
  | outbox turn => exact flow.outbox life turn
  | writer move => exact flow.writer life move
  | reader move =>
      have frame := move.frame
      have moved : Move s (.task .reader) s' := .reader move
      refine flow.of_flags moved ?_ ?_ (.inl ?_) frame.incoming frame.cancels <;>
        rw [frame.outbox]
  | call made move => exact flow.of_flags (.call made move) rfl rfl (.inl rfl) rfl rfl
  | shutdown => exact flow.of_flags .shutdown rfl rfl (.inl rfl) rfl rfl
  | abandon made => exact flow.of_flags (.abandon made) rfl rfl (.inl rfl) rfl rfl
  | outside surroundings frame silent =>
      have moved : Move s event s' := .outside surroundings frame silent
      refine flow.of_flags moved ?_ ?_ (.inl ?_) frame.incoming ?_ <;> rw [frame.outbox]

theorem run (flow : s.Flowing) (life : s.Lifecycle) (history : List Event) :
    (s.run history).Flowing := by
  have both : (s.run history).Lifecycle ∧ (s.run history).Flowing := by
    refine run_invariant (motive := fun t => t.Lifecycle ∧ t.Flowing) ⟨life, flow⟩ ?_ history
    rintro t t' event move ⟨life, flow⟩
    exact ⟨life.move move, flow.move life move⟩
  exact both.2

end Flowing

/-! ### Cancellations -/

/-- Nobody but the reader waits in line for a cancellation, and there is room for one. -/
structure Uncontested (s : Session) : Prop where
  capacity : 0 < s.outbox.cancels.capacity
  line : ∀ party ∈ s.outbox.cancels.line, party = .reader

theorem Move.cancelled (move : Move s event s') :
    s.outbox.cancels.Visited .reader s'.outbox.cancels := by
  cases move with
  | outbox turn =>
      obtain ⟨_, moved, move, settled⟩ := Outbox.outboxMove_of_turn turn
      have visited := move.cancelled .reader
      rcases settled with rfl | ⟨rfl, _⟩
      · exact visited
      · exact visited.trans (.of_line rfl rfl)
  | writer move =>
      cases move with
      | @released call up => cases up <;> exact .of_line rfl rfl
      | _ => exact .of_line rfl rfl
  | reader move => exact move.frame.cancelled
  | outside surroundings frame silent =>
      rw [frame.outbox]
      exact .of_line rfl rfl
  | _ => exact .of_line rfl rfl

theorem Uncontested.start (settings : Settings) (identity : Identity) (addr : String)
    (pieces : UInt64) (field : Bitfield) (capacities : Capacities) (transport : Transport) :
    (Session.start settings identity addr pieces field capacities transport).Uncontested :=
  ⟨Nat.succ_pos _, nofun⟩

theorem Uncontested.run (own : s.Uncontested) (history : List Event) :
    (s.run history).Uncontested := by
  refine run_invariant own ?_ history
  intro t t' event move own
  have visited := move.cancelled
  exact ⟨visited.capacity ▸ own.capacity, fun party waits =>
    (visited.line party waits).elim id (own.line party)⟩

/-- Nobody stands ahead of the reader. -/
theorem Uncontested.idxOf_reader (own : s.Uncontested) :
    s.outbox.cancels.line.idxOf .reader = 0 := by
  cases waiting : s.outbox.cancels.line with
  | nil => rfl
  | cons first rest =>
      have reader := own.line first (waiting ▸ List.mem_cons_self)
      rw [reader, List.idxOf_cons_self]

end Steps

end PeerWire.Session

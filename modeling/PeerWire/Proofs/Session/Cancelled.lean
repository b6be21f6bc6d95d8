import PeerWire.Proofs.Session.ExitReport
import PeerWire.Proofs.Session.Flow

/-!
A connection ends as cancelled when its owner was the first to call for the end, and never
otherwise. The writer too gives this reason, when the write queue has stopped and nothing of
it is left to write. But the queue stops, and the slot between the two closes, only after
somebody has called for the end, so that call of the writer's comes too late to count.

`Move.cancels` sorts out who can give the reason at all; that the queue still runs as long
as nobody has called is `Flowing`.
-/

namespace PeerWire

theorem Ending.ofReadFailure_ne_cancelled (failure : Failure) :
    ofReadFailure failure ≠ .cancelled := by
  unfold ofReadFailure
  split <;> exact nofun

namespace Session

variable {s s' : Session} {event : Event}

/-! ### Who gives the reason -/

section Reasons

variable {u : Session}

theorem not_cancelled_proceed (uncalled : u.teardown.ending? = none)
    (handled : Conversation × Progress) :
    (u.proceed handled).teardown.ending? ≠ some .cancelled := by
  obtain ⟨conversation, progress⟩ := handled
  cases progress with
  | done outcome =>
      cases outcome with
      | ok => exact fun cancelled => nomatch uncalled.symm.trans cancelled
      | error failure =>
          have first : (u.proceed (conversation, .done (.error failure))).teardown.ending? =
              some (.protocol failure.message) :=
            Teardown.ending?_trigger_of_uncalled uncalled _ _
          rw [first]
          exact nofun
  | handing errand => exact fun cancelled => nomatch uncalled.symm.trans cancelled

theorem not_cancelled_afterRead (uncalled : u.teardown.ending? = none) (outcome : ReadOutcome) :
    (u.afterRead outcome).teardown.ending? ≠ some .cancelled := by
  cases outcome with
  | message message =>
      rw [afterRead_message]
      exact not_cancelled_proceed uncalled _
  | ended =>
      have first : (u.afterRead .ended).teardown.ending? = some .streamClosed :=
        Teardown.ending?_trigger_of_uncalled uncalled _ _
      rw [first]
      exact nofun
  | failed failure =>
      have first : (u.afterRead (.failed failure)).teardown.ending? =
          some (.ofReadFailure failure) :=
        Teardown.ending?_trigger_of_uncalled uncalled _ _
      rw [first]
      exact fun same => Ending.ofReadFailure_ne_cancelled failure (Option.some.inj same)

theorem ending?_attempt (errand : Errand) :
    (s.attempt errand).2.teardown.ending? = s.teardown.ending? := by
  rw [attempt_teardown]
  rfl

theorem ending?_leaveLine (errand : Errand) :
    (s.leaveLine errand).teardown.ending? = s.teardown.ending? := by
  rw [leaveLine_teardown]
  rfl

end Reasons

/-- The reader ends a connection for many reasons, but it does not cancel it. -/
theorem ReaderMove.not_cancelled (move : ReaderMove s s') (uncalled : s.teardown.ending? = none) :
    s'.teardown.ending? ≠ some .cancelled := by
  cases move with
  | @read _ outcome inbound phase alive polled =>
      have same : ({ s with transport := { s.transport with inbound } } :
          Session).teardown.ending? = none := uncalled
      exact not_cancelled_afterRead same outcome
  | starved phase alive due => exact not_cancelled_afterRead uncalled _
  | @handed errand _ phase alive receipt =>
      exact not_cancelled_proceed ((ending?_attempt errand).trans uncalled) _
  | @turnedAway errand _ phase alive receipt =>
      exact not_cancelled_proceed ((ending?_attempt errand).trans uncalled) _
  | @expired errand _ phase alive receipt due =>
      refine not_cancelled_proceed ?_ _
      rw [ending?_leaveLine, ending?_attempt, uncalled]
  | @queued errand _ phase alive receipt =>
      rw [ending?_attempt, uncalled]
      exact nofun
  | calling phase move =>
      rw [move.ending?_eq, uncalled]
      exact nofun
  | _ => exact fun cancelled => nomatch uncalled.symm.trans cancelled

/-- The writer cancels a connection only over a write queue that has stopped. -/
theorem WriterMove.cancels (move : WriterMove s s') (uncalled : s.teardown.ending? = none)
    (cancelled : s'.teardown.ending? = some .cancelled) :
    s.outbox.hasStopped = true ∧ s.teardown.hasFired = false := by
  have gives : ∀ {reason up}, (s.failWriter reason up).teardown.ending? = some .cancelled →
      reason = .cancelled := by
    intro reason up first
    have given : (s.failWriter reason up).teardown.ending? = some reason :=
      Teardown.ending?_trigger_of_uncalled uncalled _ _
    exact Option.some.inj (given.symm.trans first)
  cases move with
  | abort phase alive cause =>
      have same := gives cancelled
      rcases cause with ⟨text, rfl⟩ | ⟨text, rfl⟩ <;> contradiction
  | failed phase cause => exact nomatch gives cancelled
  | dryUp phase alive empty stopped => exact ⟨stopped, alive⟩
  | @released call up phase ended => cases up <;> exact nomatch uncalled.symm.trans cancelled
  | calling phase move => exact nomatch (move.ending?_eq.trans uncalled).symm.trans cancelled
  | _ => exact nomatch uncalled.symm.trans cancelled

/-- A first call that cancels is the owner's, or the writer's over a queue that has stopped
before anybody has called. -/
theorem Move.cancels (move : Move s event s') (uncalled : s.teardown.ending? = none)
    (cancelled : s'.teardown.ending? = some .cancelled) :
    event = .shutdown ∨ s.outbox.hasStopped = true ∧ s.teardown.hasFired = false := by
  cases move with
  | writer move => exact .inr (move.cancels uncalled cancelled)
  | reader move => exact absurd cancelled (move.not_cancelled uncalled)
  | call made move => exact nomatch (move.ending?_eq.trans uncalled).symm.trans cancelled
  | shutdown => exact .inl rfl
  | abandon made =>
      exact nomatch ((Teardown.ending?_abandon _ _).trans uncalled).symm.trans cancelled
  | outside surroundings frame silent =>
      have same : s'.teardown.ending? = s.teardown.ending? := by
        rw [frame.teardown]
        rfl
      exact nomatch (same.trans uncalled).symm.trans cancelled
  | _ => exact nomatch uncalled.symm.trans cancelled

/-! ### Any history -/

section Runs

variable {history : List Event}

theorem ending?_run {reason : Ending} (first : s.teardown.ending? = some reason)
    (history : List Event) : (s.run history).teardown.ending? = some reason :=
  run_invariant (motive := fun t => t.teardown.ending? = some reason) first
    (fun move first => move.teardown_turn.ending? first) history

/-- The first call cancels exactly if it is the owner's. -/
theorem cancelled_iff (life : s.Lifecycle) (flow : s.Flowing)
    (uncalled : s.teardown.ending? = none) (sound : (s.run history).writer ≠ .crashed) :
    (s.run history).teardown.ending? = some .cancelled ↔
      ∃ past later, history = past ++ .shutdown :: later ∧
        (s.run past).teardown.hasFired = false := by
  constructor
  · intro cancelled
    induction history using List.reverseRecOn with
    | nil => exact nomatch uncalled.symm.trans cancelled
    | append_singleton past event ih =>
        rw [run_concat] at sound cancelled
        have move := after_move (s.run past) event
        have steady : (s.run past).writer ≠ .crashed := fun crashed =>
          sound (move.crashed crashed)
        cases before : (s.run past).teardown.ending? with
        | some reason =>
            have same := Option.some.inj ((move.teardown_turn.ending? before).symm.trans cancelled)
            obtain ⟨earlier, later, rfl, alive⟩ := ih steady (same ▸ before)
            exact ⟨earlier, later ++ [event], by simp, alive⟩
        | none =>
            have alive := (life.run past).oneShot.uncalled_iff.mp before
            rcases move.cancels before cancelled with rfl | ⟨stopped, -⟩
            · exact ⟨past, [], rfl, alive⟩
            · have running := (flow.run life past).isRunning (not_isEnding alive steady)
              rw [running] at stopped
              contradiction
  · rintro ⟨past, later, rfl, alive⟩
    have split : s.run (past ++ .shutdown :: later) = ((s.run past).after .shutdown).run later :=
      List.foldl_append
    rw [split]
    exact ending?_run ((life.run past).oneShot.ending?_trigger alive _ _) later

end Runs

/-- Cancelled means that the owner asked. No task crashes. Once the write queue has stopped,
or the slot in front of the writer is closed, somebody has called for the end; so the writer
is never the first to call for it over a queue that has ended. The first call gives
cancellation as its reason exactly if it is one of the owner's, and the exit report says so
for no other reason. -/
theorem cancelled_by_owner (settings : Settings) (identity : Identity) (addr : String)
    (pieces : UInt64) (field : Bitfield) (capacities : Capacities) (transport : Transport)
    (history : List Event)
    (sound : ((Session.start settings identity addr pieces field capacities transport).run
      history).writer ≠ .crashed) :
    let s := Session.start settings identity addr pieces field capacities transport
    let now := s.run history
    (now.outbox.hasStopped = true ∨ now.outbox.slot.isOpen = false →
        now.teardown.hasFired = true) ∧
      (∀ past later, history = past ++ .task .writer :: later →
        (s.run past).teardown.hasFired = false →
        ((s.run past).after (.task .writer)).teardown.ending? ≠ some .cancelled) ∧
      (now.teardown.ending? = some .cancelled ↔ ∃ past later,
        history = past ++ .shutdown :: later ∧ (s.run past).teardown.hasFired = false) ∧
      (∀ report ∈ s.reports history, report.reason = .cancelled → ∃ past later,
        history = past ++ .shutdown :: later ∧ (s.run past).teardown.hasFired = false) := by
  intro s now
  have life : s.Lifecycle := .start settings identity addr pieces field capacities transport
  have flow : s.Flowing := .start settings identity addr pieces field capacities transport
  have first := cancelled_iff life flow rfl (show (s.run history).writer ≠ .crashed from sound)
  refine ⟨?_, ?_, first, ?_⟩
  · have flowing := flow.run life history
    rintro (stopped | closed)
    · exact (flowing.running stopped).resolve_right sound
    · exact (flowing.slot closed).resolve_right sound
  · intro past later split alive cancelled
    have rest : s.run history = ((s.run past).after (.task .writer)).run later := by
      rw [split]
      exact List.foldl_append
    have uncalled := (life.run past).oneShot.uncalled_iff.mpr alive
    obtain same | ⟨stopped, -⟩ := (after_move _ _).cancels uncalled cancelled
    · contradiction
    · have ending := ((flow.run life past).running stopped).resolve_left (by simp [alive])
      exact sound (rest ▸ crashed_run ending (.task .writer :: later))
  · intro report put reason
    have accounts := accounts_run history life rfl
    rcases accounts.owed with none | ⟨given, returned, only⟩
    · rw [none] at put
      contradiction
    · rw [only, List.mem_singleton] at put
      subst put
      refine first.mp ?_
      unfold Teardown.ending?
      rw [List.head?_eq_getElem?, returned]
      exact congrArg some reason

/-- The owner calls while a message waits in the slot; the write queue stops, and the writer
comes upon the call. -/
theorem cancelled_by_owner_relaying :
    let s := Session.start .default default "10.0.0.7:6881" 2 (.empty 2) ⟨1, 4, 4⟩
      (.adopt default)
    let history : List Event := [.task .writer, .task .writer, .respond .interested,
      .task .outbox, .task .outbox, .shutdown, .task .outbox, .task .writer, .task (.call 0),
      .task (.call 0)]
    s.reports history = [{ addr := "10.0.0.7:6881", reason := .cancelled }] ∧
      (s.run history).outbox.hasStopped = true ∧
      ∃ past later, history = past ++ .shutdown :: later ∧
        (s.run past).teardown.hasFired = false := by
  intro s history
  have reported : s.reports history = [{ addr := "10.0.0.7:6881", reason := .cancelled }] := by
    decide
  obtain ⟨-, -, -, asked⟩ := cancelled_by_owner .default default "10.0.0.7:6881" 2 (.empty 2)
    ⟨1, 4, 4⟩ (.adopt default) history (by decide)
  exact ⟨reported, by decide, asked _ (reported ▸ List.mem_singleton_self _) rfl⟩

end Session

end PeerWire

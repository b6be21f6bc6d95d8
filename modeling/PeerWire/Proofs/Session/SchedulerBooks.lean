import PeerWire.Proofs.Session.Dealings
import PeerWire.Proofs.Session.ExitReport

/-!
The scheduler's books on a connection are always closed. All work that a connection submits
comes before the marker of its end, and the marker comes exactly if the scheduler may know
of the connection at all and takes it in time. The report of the exit waits for the
marker's attempt.

That nothing follows the marker rests on the order within the teardown: the call that
acts has told every task before it tries to hand the marker over, and a task that has been
told gives up its place in line.
-/

namespace PeerWire

namespace Session

/-! ### The marker -/

section Marker

variable {s s' : Session} {event : Event}

/-- Only a task ends the attempt to hand the marker over. -/
theorem Move.isTask_of_settled (move : Move s event s') {now : Nat} {how : HandOver}
    (settled : Teardown.MarkerSettled s.teardown s'.teardown now how) :
    ∃ task, event = .task task := by
  obtain ⟨reason, deadline, marking, reporting, -⟩ := settled.attempted
  cases move with
  | shutdown =>
      have called : s.teardown.calls ≠ [] := by
        intro none
        rw [none] at marking
        contradiction
      exact absurd (Teardown.first_trigger called _) settled.first_ne
  | @abandon number made =>
      rcases s.teardown.first_abandon number with same | ⟨other, abandoned⟩
      · exact absurd same settled.first_ne
      · rw [abandoned] at reporting
        cases reporting
  | outside surroundings frame silent =>
      exact absurd (by rw [frame.teardown]) settled.first_ne
  | _ => exact ⟨_, rfl⟩

/-- The marker is submitted at the event that ends the attempt with its acceptance. -/
theorem marker_submitted_iff (life : s.Lifecycle) (event : Event) :
    .delivery (.disconnected s.teardown.addr) ∈ s.submitted event ↔
      Teardown.MarkerSettled s.teardown (s.after event).teardown s.now .accepted := by
  have move := after_move s event
  constructor
  · intro inside
    have called : ∀ {number teardown}, s.teardown.CallMove number s.now teardown →
        .delivery (.disconnected s.teardown.addr) ∈ s.dealt { s with teardown } →
        Teardown.MarkerSettled s.teardown teardown s.now .accepted := by
      intro number teardown call inside
      refine (call.accepted_iff life.oneShot).mp ?_
      simpa [dealt] using inside
    cases event with
    | task task =>
        rw [submitted] at inside
        generalize s.after (.task task) = s' at move inside ⊢
        cases move with
        | wait => simp [dealt] at inside
        | outbox => simp [dealt] at inside
        | call made move => exact called move inside
        | writer move =>
            rcases move.dealt with ⟨number, teardown, call, rfl⟩ | ⟨nothing, -⟩
            · exact called call inside
            · rw [nothing] at inside
              contradiction
        | reader move =>
            rcases move.deals life with ⟨number, teardown, call, rfl, -⟩ | deals
            · exact called call inside
            · cases deals.own _ inside
        | outside surroundings => contradiction
    | _ => contradiction
  · intro settled
    obtain ⟨task, rfl⟩ := move.isTask_of_settled settled
    have entered := settled.entered
    rw [if_pos rfl] at entered
    simp [submitted, dealt, entered]

end Marker

/-! ### Its limit -/

theorem Move.handOff {s s' : Session} {event : Event} (move : Move s event s') :
    s'.teardown.handOff = s.teardown.handOff := by
  cases move with
  | writer move =>
      cases move with
      | abort => exact Teardown.handOff_trigger _ _ _
      | failed => exact Teardown.handOff_trigger _ _ _
      | dryUp => exact Teardown.handOff_trigger _ _ _
      | @released call up => cases up <;> rfl
      | calling phase move => exact move.handOff_eq
      | _ => rfl
  | reader move =>
      cases move.turn with
      | onward before alive after teardown => rw [teardown]
      | failed before alive after teardown => rw [teardown, Teardown.handOff_trigger]
      | stopped before after teardown => rw [teardown]
      | calling before after move => exact move.handOff_eq
  | call made move => exact move.handOff_eq
  | shutdown => exact Teardown.handOff_trigger _ _ _
  | abandon made => exact Teardown.handOff_abandon _ _
  | outside surroundings frame silent => rw [frame.teardown]
  | _ => rfl

/-! ### Any history -/

/-- Along the history the attempt to hand the marker over has come to this end. -/
def SettlesMarker (s : Session) (history : List Event) (how : HandOver) : Prop :=
  ∃ past event later, history = past ++ event :: later ∧
    Teardown.MarkerSettled (s.run past).teardown ((s.run past).after event).teardown
      (s.run past).now how

theorem SettlesMarker.concat {s : Session} {past : List Event} {how : HandOver}
    (settled : s.SettlesMarker past how) (event : Event) :
    s.SettlesMarker (past ++ [event]) how := by
  obtain ⟨earlier, settling, later, rfl, ended⟩ := settled
  exact ⟨earlier, settling, later ++ [event], by simp, ended⟩

section Runs

variable {s : Session} {before : Nat}

theorem handOff_run (s : Session) (history : List Event) :
    (s.run history).teardown.handOff = s.teardown.handOff :=
  run_invariant (motive := fun t => t.teardown.handOff = s.teardown.handOff) rfl
    (fun move same => move.handOff.trans same) history

theorem dealings_run (life : s.Lifecycle) (wired : s.Wired before)
    (fresh : s.Dealings [] [] []) (history : List Event) :
    ∃ work marker, s.submissions history = work ++ marker ∧
      (s.run history).Dealings ((s.messagesHeard history).filterMap Message.block?)
        work marker := by
  induction history using List.reverseRecOn with
  | nil => exact ⟨[], [], rfl, fresh⟩
  | append_singleton past event ih =>
      obtain ⟨work, marker, sofar, dealings⟩ := ih
      obtain ⟨work', marker', more, later⟩ :=
        dealings.after (life.run past) (wired.run past) event
      refine ⟨work', marker', ?_, ?_⟩
      · rw [submissions, observe_concat, ← submissions, sofar, more]
      · rw [run_concat, messagesHeard, observe_concat, ← messagesHeard, List.filterMap_append]
        exact later

/-- An event with which the connection is torn down does not establish it. -/
theorem isEstablished_of_fires {event : Event} (fired : (s.after event).teardown.hasFired = true) :
    (s.after event).teardown.isEstablished = s.teardown.isEstablished := by
  rcases (after_move s event).isEstablished with same | ⟨-, -, -, alive, -⟩
  · exact same
  · rw [fired] at alive
    contradiction

/-- From its end on, an established connection hands its marker over, or has tried to, or
the call that would have is given up. -/
theorem marker_run (life : s.Lifecycle) (fresh : s.teardown.hasFired = false)
    (history : List Event) (fired : (s.run history).teardown.hasFired = true)
    (established : (s.run history).teardown.isEstablished = true) :
    (s.run history).teardown.IsMarking ∨ (∃ how, s.SettlesMarker history how) ∨
      (s.run history).teardown.IsForsaken := by
  induction history using List.reverseRecOn with
  | nil => exact absurd (fired.symm.trans fresh) nofun
  | append_singleton past event ih =>
      have turn := turn_after (s.run past) event
      have one := (life.run past).oneShot
      rw [run_concat] at fired established ⊢
      have up := (isEstablished_of_fires fired).symm.trans established
      -- Either somebody has called for the end before, or this event is the call that acts.
      by_cases torn : (s.run past).teardown.hasFired = true
      · rcases ih torn up with marking | ⟨how, settled⟩ | forsaken
        · rcases turn.of_isMarking one marking with still | ⟨how, settled⟩ | forsaken
          · exact .inl still
          · exact .inr (.inl ⟨how, past, event, [], rfl, settled⟩)
          · exact .inr (.inr forsaken)
        · exact .inr (.inl ⟨how, settled.concat event⟩)
        · exact .inr (.inr (turn.forsaken forsaken))
      · obtain ⟨reason, calls⟩ := turn.fires one (by simpa using torn) fired
        rw [established, if_pos rfl] at calls
        exact .inl ⟨reason, _, by rw [calls]; rfl⟩

/-- The report of an established connection comes after the attempt to hand its marker
over. -/
theorem settled_of_reported (life : s.Lifecycle) (fresh : s.teardown.hasFired = false)
    (history : List Event) {event : Event} (reported : (s.run history).reported event ≠ [])
    (established : (s.run history).teardown.isEstablished = true) :
    ∃ how, s.SettlesMarker history how := by
  have one := (life.run history).oneShot
  obtain ⟨reason, reporting⟩ := (turn_after (s.run history) event).reporting one reported
  have fired : (s.run history).teardown.hasFired = true := by
    refine one.fired_iff.mpr ?_
    intro none
    rw [none] at reporting
    contradiction
  rcases marker_run life fresh history fired established with
    ⟨other, deadline, marking⟩ | settled | ⟨other, abandoned⟩
  · rw [marking] at reporting
    cases reporting
  · exact settled
  · rw [abandoned] at reporting
    cases reporting

/-- The marker is among what was submitted exactly if the attempt has ended with its
acceptance. -/
theorem marker_submitted_run (life : s.Lifecycle) (history : List Event) :
    .delivery (.disconnected s.teardown.addr) ∈ s.submissions history ↔
      s.SettlesMarker history .accepted := by
  rw [submissions, mem_observe]
  have here : ∀ past event,
      .delivery (.disconnected s.teardown.addr) ∈ (s.run past).submitted event ↔
        Teardown.MarkerSettled (s.run past).teardown ((s.run past).after event).teardown
          (s.run past).now .accepted := by
    intro past event
    rw [← addr_run s past]
    exact marker_submitted_iff (life.run past) event
  simp only [here, SettlesMarker]

end Runs

/-- However the connection goes, the scheduler's books on it are closed.

What it submits to the scheduler is work, and then at most the marker of its end: after
that no block and no request of its gets in. The blocks among the work are the first ones
that were heard, in order. Nothing is submitted, and no marker attempted, unless the
connection is established, and that is settled once somebody calls for the end: the call
that tears the connection down attempts to hand the marker over if it is established by
then, and goes on to its report otherwise. The marker is submitted exactly if that attempt
ends with its acceptance, and the report of an established connection waits for the end of
the attempt. -/
theorem scheduler_books_closed (settings : Settings) (identity : Identity) (addr : String)
    (pieces : UInt64) (field : Bitfield) (capacities : Capacities) (transport : Transport)
    (history : List Event) :
    let s := Session.start settings identity addr pieces field capacities transport
    let t := s.run history
    (∃ work marker, s.submissions history = work ++ marker ∧
      (∀ item ∈ work, item.IsWork addr) ∧
      work.filterMap Emission.block? <+: (s.messagesHeard history).filterMap Message.block? ∧
      (marker = [] ∨ marker = [.delivery (.disconnected addr)])) ∧
    (s.submissions history ≠ [] ∨ t.teardown.IsMarking → t.teardown.isEstablished = true) ∧
    (t.teardown.hasFired = true → ∀ later,
      (t.run later).teardown.isEstablished = t.teardown.isEstablished) ∧
    (∀ event, t.teardown.hasFired = false → (t.after event).teardown.hasFired = true →
      ∃ reason, (t.after event).teardown.calls = [⟨reason, if t.teardown.isEstablished then
        .marking (Clock.timer t.now settings.handOff) else .reporting⟩]) ∧
    (.delivery (.disconnected addr) ∈ s.submissions history ↔
      s.SettlesMarker history .accepted) ∧
    ∀ event, t.reported event ≠ [] → t.teardown.isEstablished = true →
      ∃ how, s.SettlesMarker history how := by
  intro s t
  have life : s.Lifecycle := .start settings identity addr pieces field capacities transport
  have addressed : t.teardown.addr = addr := addr_run s history
  obtain ⟨work, marker, sofar, dealings⟩ :=
    dealings_run life (.start settings identity addr pieces field capacities transport)
      (.start settings identity addr pieces field capacities transport) history
  refine ⟨⟨work, marker, sofar, ?_, dealings.blocks, ?_⟩, ?_, ?_, ?_,
    marker_submitted_run life history, ?_⟩
  · rw [← addressed]
    exact dealings.own
  · rw [← addressed]
    exact dealings.closing.imp_right (·.1)
  · rintro (submitted | marking)
    · exact dealings.established (sofar ▸ submitted)
    · exact dealings.marking marking
  · intro fired later
    exact (isEstablished_run_of_fired fired later).2
  · intro event alive fired
    obtain ⟨reason, calls⟩ := (turn_after t event).fires (life.run history).oneShot alive fired
    have limit : (t.after event).teardown.handOff = settings.handOff :=
      (after_move t event).handOff.trans (handOff_run s history)
    rw [isEstablished_of_fires fired, limit] at calls
    exact ⟨reason, calls⟩
  · intro event reported established
    exact settled_of_reported life rfl history reported established

end Session

end PeerWire

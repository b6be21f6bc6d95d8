import PeerWire.Proofs.Session.Lifecycle

/-!
A connection reports its exit once. Along any history, with every task stepping
whenever it likes and the surroundings doing anything at all, at most one report of the
connection's own gets into the exits. When the writer is done and all calls of the owner
have returned, there is exactly one, unless nobody listens: it names the connection's
address and the reason of the first call for the end.

That the report is there by then is not said anywhere in the code. It holds because a
task leaves quietly only when it has been told of a call, because the call that acts is
waited for by whoever made it, and because the writer waits for the reader.
-/

namespace PeerWire.Session

/-- The reports of its own that the connection puts into the exits at an event. -/
def reported (s : Session) (event : Event) : List ExitReport :=
  if event.isPost then [] else s.teardown.exits.gained (s.after event).teardown.exits

/-- All reports of its own that the connection puts into the exits along a history. -/
def reports (s : Session) (history : List Event) : List ExitReport :=
  observe reported s history

/-- The owner stops waiting for a call only when that call is over. -/
def SeesCallsThrough (s : Session) (event : Event) : Prop :=
  ∀ number, event = .abandonCall number → s.teardown.hasEnded number = true

/-! ### One event -/

/-- What an event does to the teardown, and the reports it puts into the exits. -/
theorem turn_after (s : Session) (event : Event) :
    s.teardown.Turn s.now (fun number => event = .abandonCall number) (s.reported event)
      (s.after event).teardown :=
  (after_move s event).teardown_turn

/-! ### Any history -/

section Runs

variable (s : Session) (history : List Event)

theorem addr_run : (s.run history).teardown.addr = s.teardown.addr :=
  run_invariant (motive := fun t => t.teardown.addr = s.teardown.addr) rfl
    (fun move same => move.teardown_turn.addr_eq.trans same) history

variable {s}

/-- The reports that were put into the exits are those that the first call owes. -/
theorem accounts_run (life : s.Lifecycle) (fresh : s.teardown.calls = []) :
    (s.run history).teardown.Accounts (s.reports history) := by
  induction history using List.reverseRecOn with
  | nil => exact .of_unreturned (by simp [fresh])
  | append_singleton past event ih =>
      have turned := ih.turn (life.run past).oneShot (turn_after (s.run past) event)
      unfold reports at turned ⊢
      rwa [run_concat, observe_concat]

theorem unabandoned_run (fresh : s.teardown.calls = [])
    (seen : Along SeesCallsThrough s history) : (s.run history).teardown.Unabandoned := by
  induction history using List.reverseRecOn with
  | nil =>
      intro number call found
      simp [fresh] at found
  | append_singleton past event ih =>
      obtain ⟨before, now⟩ := (along_concat _ _ _ _).mp seen
      rw [run_concat]
      exact (ih before).turn (turn_after _ event) now

end Runs

/-- A connection puts at most one report of its own into the exits. When its writer is
done and no call of the owner waits any more, it has put exactly one there, if the
receiver is still alive: with its own address, and with the reason of the first call.
The owner must not have dropped a call before it was over. -/
theorem exit_reported_once (settings : Settings) (identity : Identity) (addr : String)
    (pieces : UInt64) (field : Bitfield) (capacities : Capacities) (transport : Transport)
    (history : List Event) :
    let s := Session.start settings identity addr pieces field capacities transport
    (s.reports history).length ≤ 1 ∧
      (Along SeesCallsThrough s history → (s.run history).writer = .finished →
        (∀ number ∈ (s.run history).ownerCalls,
          (s.run history).teardown.hasEnded number = true) →
        (s.run history).teardown.exits.isOpen = true →
        ∃ reason, (s.run history).teardown.ending? = some reason ∧
          s.reports history = [{ addr, reason }]) := by
  intro s
  have life : s.Lifecycle := .start settings identity addr pieces field capacities transport
  have accounts := accounts_run history life rfl
  refine ⟨accounts.length_le_one, ?_⟩
  intro seen finished settled listening
  have lived := life.run history
  have made : 0 < (s.run history).teardown.calls.length :=
    List.length_pos_iff.mpr (lived.oneShot.fired_iff.mp (lived.writer (by rw [finished]; rfl)))
  have kept : (s.run history).teardown.Unabandoned := unabandoned_run history rfl seen
  obtain ⟨reason, returned⟩ :=
    kept.returned lived.oneShot (lived.hasEnded_of_finished finished settled 0 made)
  refine ⟨reason, ?_, ?_⟩
  · unfold Teardown.ending?
    rw [List.head?_eq_getElem?, returned]
    rfl
  · rw [accounts.paid reason returned listening, addr_run]
    rfl

/-- The remote of an adopted wire ends its side, and only then the owner calls. -/
theorem exit_reported_once_streamClosed :
    let s := Session.start .default default "10.0.0.7:6881" 2 (.empty 2) ⟨1, 4, 4⟩
      (.adopt default)
    let history : List Event := [.task .writer, .task .writer, .remoteEnds, .task .reader,
      .shutdown, .task .reader, .task .reader, .task .reader, .task .outbox, .task .writer,
      .task .writer, .task .writer]
    s.reports history = [{ addr := "10.0.0.7:6881", reason := .streamClosed }] := by
  intro s history
  have seen : Along SeesCallsThrough s history := by
    refine ⟨?_, ?_, ?_, ?_, ?_, ?_, ?_, ?_, ?_, ?_, ?_, ?_, trivial⟩ <;> exact fun _ => nofun
  obtain ⟨reason, first, only⟩ :=
    (exit_reported_once .default default "10.0.0.7:6881" 2 (.empty 2) ⟨1, 4, 4⟩ (.adopt default)
      history).2 seen rfl (by decide) rfl
  have closed : reason = .streamClosed := Option.some.inj (first.symm.trans rfl)
  rw [closed] at only
  exact only

end PeerWire.Session

import Mathlib.Data.List.Induction
import PeerWire.Proofs.Teardown

/-!
Teardown calls that are given up. Here a teardown stands alone: any number of calls for the
end, each stepping on its own or dropped by its caller at any moment, and others who use the
same two mailboxes. The first call is the only one that acts, and the only one that tells
its caller so; with its return the report is among the exits. All other calls return at
once, also while the first still waits, so that their return says nothing about the report.

Nobody takes the place of a first call that is dropped before it is over: the connection is
torn down by then, and never reports that it is. `Teardown.IsForsaken` is that situation. If
nothing else stands between a return and the report than the first call's own wait, it is
the only one in which there is none.
-/

namespace PeerWire.Teardown

/-! ### Reasons -/

section Reasons

variable (t : Teardown)

theorem reasons_setPhase (number : Nat) (phase : CallPhase) :
    (t.setPhase number phase).calls.map (·.reason) = t.calls.map (·.reason) := by
  refine List.ext_getElem? ?_
  intro other
  rw [List.getElem?_map, List.getElem?_map, getElem?_setPhase]
  split
  · rw [Option.map_map]
    rfl
  · rfl

variable {t} in
theorem CallMove.reasons {t' : Teardown} {number now : Nat} (move : CallMove t number now t') :
    t'.calls.map (·.reason) = t.calls.map (·.reason) := by
  cases move with
  | marked => exact reasons_setPhase ..
  | gaveUp => exact reasons_setPhase ..
  | queuedToMark => rfl
  | reported => exact reasons_setPhase ..
  | queuedToReport => rfl

theorem reasons_abandon (number : Nat) :
    (t.abandon number).calls.map (·.reason) = t.calls.map (·.reason) := by
  unfold abandon
  split
  · rfl
  · exact reasons_setPhase ..

theorem reasons_trigger (reason : Ending) (now : Nat) :
    (t.trigger reason now).calls.map (·.reason) = t.calls.map (·.reason) ++ [reason] := by
  unfold trigger
  split
  · exact List.map_append
  · exact List.map_append

end Reasons

/-! ### A teardown among its callers -/

/-- What can happen to a teardown. -/
inductive Event where
  /-- Somebody calls for the end. -/
  | trigger (reason : Ending)
  /-- The call takes a step, if it can. -/
  | advance (number : Nat)
  /-- The caller drops the call. -/
  | abandon (number : Nat)
  | establish
  | wait (ms : Nat)
  /-- Another connection reports its exit. -/
  | report (who : Option Party) (report : ExitReport)
  /-- Somebody else puts something into the deliveries. -/
  | deliver (who : Option Party) (delivery : Delivery)
  | takeExits (most : Nat)
  | takeDeliveries (most : Nat)
  | closeExits
  | closeDeliveries
deriving DecidableEq, Repr

/-- The reason that a call for the end gives. -/
def Event.called? : Event → Option Ending
  | .trigger reason => some reason
  | _ => none

/-- A teardown at a moment. -/
structure World where
  teardown : Teardown
  now : Nat := 0
deriving DecidableEq, Repr

namespace World

/-- A teardown that nobody has called for yet. -/
def start (addr : String) (handOff exits deliveries : Nat) : World where
  teardown := {
    addr
    handOff
    exits := .ofCapacity exits
    deliveries := .ofCapacity deliveries }

/-- What an event leads to. -/
def after (w : World) : Event → World
  | .trigger reason => { w with teardown := w.teardown.trigger reason w.now }
  | .advance number =>
      { w with teardown := (w.teardown.advance number w.now).getD w.teardown }
  | .abandon number => { w with teardown := w.teardown.abandon number }
  | .establish => { w with teardown := w.teardown.markEstablished }
  | .wait ms => { w with now := w.now + ms }
  | .report who report =>
      { w with teardown := { w.teardown with exits := (w.teardown.exits.put who report).2 } }
  | .deliver who delivery =>
      { w with teardown :=
        { w.teardown with deliveries := (w.teardown.deliveries.put who delivery).2 } }
  | .takeExits most =>
      { w with teardown := { w.teardown with exits := (w.teardown.exits.take most).2 } }
  | .takeDeliveries most =>
      { w with teardown := { w.teardown with deliveries := (w.teardown.deliveries.take most).2 } }
  | .closeExits => { w with teardown := { w.teardown with exits := w.teardown.exits.close } }
  | .closeDeliveries =>
      { w with teardown := { w.teardown with deliveries := w.teardown.deliveries.close } }

/-- The reports that a call puts into the exits with an event. -/
def reported (w : World) : Event → List ExitReport
  | .advance number => w.teardown.exits.gained (w.after (.advance number)).teardown.exits
  | _ => []

/-- A history of events, one after the other. -/
def run (w : World) (history : List Event) : World :=
  history.foldl after w

/-- All reports that calls put into the exits along a history. -/
def reports (w : World) : List Event → List ExitReport
  | [] => []
  | event :: history => w.reported event ++ (w.after event).reports history

section Histories

variable (w : World) (past : List Event) (event : Event)

@[simp] theorem run_concat : w.run (past ++ [event]) = (w.run past).after event :=
  List.foldl_append

@[simp] theorem reports_concat :
    w.reports (past ++ [event]) = w.reports past ++ (w.run past).reported event := by
  induction past generalizing w with
  | nil => exact List.append_nil _
  | cons first rest ih =>
      have run : w.run (first :: rest) = (w.after first).run rest := rfl
      rw [List.cons_append, reports, reports, ih, run, List.append_assoc]

end Histories

/-! ### One event -/

/-- What an event does to the calls, and the reports that they put into the exits. -/
theorem turn_after (w : World) (event : Event) :
    w.teardown.Turn w.now (fun _ => True) (w.reported event) (w.after event).teardown := by
  cases event with
  | trigger reason => exact .trigger rfl rfl rfl rfl
  | abandon number => exact .abandon trivial
  | advance number =>
      cases step : w.teardown.advance number w.now with
      | none =>
          have same : w.after (.advance number) = w := by simp [after, step]
          rw [reported, same, Mailbox.gained_self]
          exact .rest rfl rfl rfl id
      | some t =>
          have next : (w.after (.advance number)).teardown = t := by simp [after, step]
          rw [reported, next]
          exact .call (callMove_of_advance step)
  | report who report =>
      refine .rest rfl rfl rfl ?_
      intro listening
      exact (Mailbox.isOpen_put _ who report).symm.trans listening
  | closeExits => exact .rest rfl rfl rfl nofun
  | _ => exact .rest rfl rfl rfl id

/-- Calls are made in the order of the events, and keep their reasons. -/
theorem reasons_after (w : World) (event : Event) :
    (w.after event).teardown.calls.map (·.reason) =
      w.teardown.calls.map (·.reason) ++ event.called?.toList := by
  cases event with
  | trigger reason => exact reasons_trigger ..
  | abandon number => exact (reasons_abandon ..).trans (List.append_nil _).symm
  | advance number =>
      refine Eq.trans ?_ (List.append_nil _).symm
      cases step : w.teardown.advance number w.now with
      | none => simp [after, step]
      | some t =>
          have next : (w.after (.advance number)).teardown = t := by simp [after, step]
          rw [next, (callMove_of_advance step).reasons]
  | _ => exact (List.append_nil _).symm

/-! ### Any history -/

section Runs

variable {w : World} (history : List Event)

theorem oneShot_run (one : w.teardown.OneShot) : (w.run history).teardown.OneShot := by
  induction history using List.reverseRecOn with
  | nil => exact one
  | append_singleton past event ih =>
      rw [run_concat]
      exact ih.turn (turn_after _ event)

theorem accounts_run (one : w.teardown.OneShot) (fresh : w.teardown.calls = []) :
    (w.run history).teardown.Accounts (w.reports history) := by
  induction history using List.reverseRecOn with
  | nil =>
      refine .of_unreturned ?_
      intro reason returned
      have uncalled : (w.run []).teardown.calls = [] := fresh
      rw [uncalled] at returned
      contradiction
  | append_singleton past event ih =>
      rw [run_concat, reports_concat]
      exact ih.turn (oneShot_run past one) (turn_after _ event)

theorem addr_run : (w.run history).teardown.addr = w.teardown.addr := by
  induction history using List.reverseRecOn with
  | nil => rfl
  | append_singleton past event ih => rw [run_concat, (turn_after _ event).addr_eq, ih]

theorem reasons_run : (w.run history).teardown.calls.map (·.reason) =
    w.teardown.calls.map (·.reason) ++ history.filterMap Event.called? := by
  induction history using List.reverseRecOn with
  | nil => exact (List.append_nil _).symm
  | append_singleton past event ih =>
      rw [run_concat, reasons_after, ih, List.filterMap_append, List.append_assoc]
      cases event <;> rfl

theorem isForsaken_run {past : List Event} (forsaken : (w.run past).teardown.IsForsaken)
    (later : List Event) : (w.run (past ++ later)).teardown.IsForsaken := by
  induction later using List.reverseRecOn with
  | nil => rwa [List.append_nil]
  | append_singleton before event ih =>
      rw [← List.append_assoc, run_concat]
      exact (turn_after _ event).forsaken ih

end Runs

/-- However many calls there are, and whichever of them are dropped while they wait, no more
than one report gets into the exits, with the address of the connection and the reason of
the first call. As soon as the call that tore the connection down has returned, which is
the first one and the only one that returns `true`, exactly one has, if the receiver is
still alive.

All other calls return at once. So when some call has returned, the report is there unless
the first call still waits, or was dropped while it did; and a connection whose first call
was dropped never reports anything, however many calls there are later. -/
theorem reported_unless_forsaken (addr : String) (handOff exits deliveries : Nat)
    (history : List Event) :
    let first := start addr handOff exits deliveries
    let w := first.run history
    let put := first.reports history
    w.teardown.calls.map (·.reason) = history.filterMap Event.called? ∧
      put.length ≤ 1 ∧
      (∀ number reason, w.teardown.calls[number]? = some { reason, phase := .returned true } →
        number = 0 ∧ (w.teardown.exits.isOpen = true → put = [{ addr, reason }])) ∧
      (∀ report ∈ put, ∃ call,
        w.teardown.calls[0]? = some call ∧ report = { addr, reason := call.reason }) ∧
      (∀ number call, w.teardown.calls[number + 1]? = some call →
        call.phase = .returned false) ∧
      (w.teardown.exits.isOpen = true →
        (put.length = 1 ↔ w.teardown.hasEnded 0 = true ∧ ¬ w.teardown.IsForsaken)) ∧
      (w.teardown.IsForsaken → ∀ later, first.reports (history ++ later) = []) := by
  intro first w put
  have one : first.teardown.OneShot := .fresh rfl rfl
  have ours : w.teardown.addr = addr := addr_run history
  have lived : w.teardown.OneShot := oneShot_run history one
  have accounts : w.teardown.Accounts put := accounts_run history one rfl
  refine ⟨reasons_run history, accounts.length_le_one, ?_, ?_, lived.later, ?_, ?_⟩
  · intro number reason returned
    cases number with
    | zero =>
        refine ⟨rfl, ?_⟩
        intro listening
        rw [← ours]
        exact accounts.paid reason returned listening
    | succ number => exact absurd (lived.later number _ returned) (by simp)
  · intro report inside
    rcases accounts.owed with none | ⟨reason, returned, only⟩
    · rw [none] at inside
      contradiction
    · rw [only, ours] at inside
      exact ⟨_, returned, List.mem_singleton.mp inside⟩
  · intro listening
    rw [← lived.returned_iff]
    exact accounts.length_eq_one_iff listening
  · intro forsaken later
    exact (accounts_run (history ++ later) one rfl).eq_nil_of_isForsaken
      (isForsaken_run forsaken later)

/-- The exits are full, and the first call is dropped while it waits for room. There is room
again, and somebody listens; the next call returns, with no call left at work, and nothing is
reported. -/
theorem unreported_when_forsaken :
    let first := start "10.0.0.7:6881" 100 1 1
    let history : List Event := [.report none { addr := "10.0.0.8:6881", reason := .cancelled },
      .trigger .cancelled, .advance 0, .abandon 0, .takeExits 1, .trigger .streamClosed,
      .advance 0, .advance 1]
    (first.run history).teardown.calls =
        [⟨.cancelled, .abandoned⟩, ⟨.streamClosed, .returned false⟩] ∧
      (first.run history).teardown.exits = .ofCapacity 1 ∧ first.reports history = [] := by
  decide

/-- A call that comes too late may return before the report is there: the exits are full, and
the first call waits for room. -/
example :
    let first := start "10.0.0.7:6881" 100 1 1
    let history : List Event := [.report none { addr := "10.0.0.8:6881", reason := .cancelled },
      .trigger .cancelled, .advance 0, .trigger .streamClosed]
    (first.run history).teardown.calls =
        [⟨.cancelled, .reporting⟩, ⟨.streamClosed, .returned false⟩] ∧
      first.reports history = [] := by
  decide

end World

end PeerWire.Teardown

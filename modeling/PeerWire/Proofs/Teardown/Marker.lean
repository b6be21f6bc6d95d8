import PeerWire.Conversation
import PeerWire.Proofs.Teardown

/-!
The marker that tells the scheduler of a connection's end. The first call tries to hand it
over, once, and does so exactly when the connection was established by then. Its attempt
ends with the step that `MarkerSettled` describes, and only after that step the call goes
on to the report.
-/

namespace PeerWire.Teardown

/-- The first call tries to hand the marker over. -/
def IsMarking (t : Teardown) : Prop :=
  ∃ reason deadline, t.calls[0]? = some { reason, phase := .marking deadline }

/-- The attempt to hand the marker over ends with a step at this moment, in this way. -/
structure MarkerSettled (t t' : Teardown) (now : Nat) (how : HandOver) : Prop where
  attempted : ∃ reason deadline, t.calls[0]? = some { reason, phase := .marking deadline } ∧
    t'.calls[0]? = some { reason, phase := .reporting } ∧ (how = .expired → deadline ≤ now)
  entered : t.deliveries.gained t'.deliveries =
    if how = .accepted then [.disconnected t.addr] else []
  shut : how = .closed → t.deliveries.isOpen = false

/-! ### The limit on the attempt -/

@[simp] theorem handOff_trigger (t : Teardown) (reason : Ending) (now : Nat) :
    (t.trigger reason now).handOff = t.handOff := by
  unfold trigger
  split <;> rfl

@[simp] theorem handOff_abandon (t : Teardown) (number : Nat) :
    (t.abandon number).handOff = t.handOff := by
  unfold abandon
  split <;> rfl

theorem CallMove.handOff_eq {t t' : Teardown} {number now : Nat}
    (move : CallMove t number now t') : t'.handOff = t.handOff := by
  cases move <;> rfl

/-! ### One step of a call -/

section Steps

variable {t t' : Teardown} {number now : Nat}

theorem isMarking_congr (calls : t'.calls = t.calls) : t'.IsMarking ↔ t.IsMarking := by
  unfold IsMarking
  rw [calls]

theorem MarkerSettled.isMarking {how : HandOver} (settled : MarkerSettled t t' now how) :
    t.IsMarking := by
  obtain ⟨reason, deadline, marking, -⟩ := settled.attempted
  exact ⟨reason, deadline, marking⟩

theorem MarkerSettled.not_isMarking {how : HandOver} (settled : MarkerSettled t t' now how) :
    ¬ t'.IsMarking := by
  obtain ⟨reason, deadline, -, reporting, -⟩ := settled.attempted
  rintro ⟨reason', deadline', marking⟩
  rw [reporting] at marking
  cases marking

/-- The attempt does not end while the first call stays where it is. -/
theorem MarkerSettled.first_ne {how : HandOver} (settled : MarkerSettled t t' now how) :
    t'.calls[0]? ≠ t.calls[0]? := by
  obtain ⟨reason, deadline, marking, reporting, -⟩ := settled.attempted
  rw [marking, reporting]
  simp

/-- The marker is sent for by an established connection only, and by its first call. -/
theorem OneShot.hasFired_of_isMarking (one : t.OneShot) (marking : t.IsMarking) :
    t.hasFired = true := by
  obtain ⟨reason, deadline, found⟩ := marking
  refine one.fired_iff.mpr ?_
  intro none
  rw [none] at found
  contradiction

/-- A step of a call ends the attempt, or leaves the deliveries and the attempt alone. -/
theorem CallMove.marker (move : CallMove t number now t') (one : t.OneShot) :
    (∃ how, MarkerSettled t t' now how) ∨
      t.deliveries.gained t'.deliveries = [] ∧ (t'.IsMarking ↔ t.IsMarking) := by
  obtain rfl := move.eq_zero one
  have entered := t.deliveries.gained_send (.caller 0) (.disconnected t.addr)
  have shut := t.deliveries.send_eq_closed_iff (.caller 0) (.disconnected t.addr)
  cases move with
  | @marked reason deadline receipt deliveries phase sent settled =>
      rw [sent] at entered shut
      have reporting : (({ t with deliveries } : Teardown).setPhase 0 .reporting).calls[0]? =
          some { reason, phase := .reporting } := by simp [getElem?_setPhase, phase]
      left
      cases receipt with
      | accepted => exact ⟨.accepted, ⟨reason, deadline, phase, reporting, nofun⟩, entered, nofun⟩
      | closed =>
          exact ⟨.closed, ⟨reason, deadline, phase, reporting, nofun⟩, entered,
            fun _ => shut.mp rfl⟩
      | full => exact absurd rfl settled
  | @gaveUp reason deadline deliveries phase sent due =>
      rw [sent] at entered
      have left : t.deliveries.gained (deliveries.leave (.caller 0)) =
          t.deliveries.gained deliveries := rfl
      refine .inl ⟨.expired, ⟨reason, deadline, phase, ?_, fun _ => due⟩, left.trans entered, nofun⟩
      simp [getElem?_setPhase, phase]
  | queuedToMark phase sent =>
      rw [sent] at entered
      exact .inr ⟨entered, isMarking_congr rfl⟩
  | @reported reason receipt exits phase sent settled =>
      refine .inr ⟨Mailbox.gained_self _, ?_⟩
      have returned : (({ t with exits } : Teardown).setPhase 0 (.returned true)).calls[0]? =
          some { reason, phase := .returned true } := by simp [getElem?_setPhase, phase]
      unfold IsMarking
      simp [returned, phase]
  | queuedToReport phase sent => exact .inr ⟨Mailbox.gained_self _, isMarking_congr rfl⟩

/-- The marker enters the deliveries with the step that ends the attempt so. -/
theorem CallMove.accepted_iff (move : CallMove t number now t') (one : t.OneShot) :
    .disconnected t.addr ∈ t.deliveries.gained t'.deliveries ↔
      MarkerSettled t t' now .accepted := by
  constructor
  · intro inside
    rcases move.marker one with ⟨how, settled⟩ | ⟨nothing, -⟩
    · rw [settled.entered] at inside
      cases how with
      | accepted => exact settled
      | _ => contradiction
    · rw [nothing] at inside
      contradiction
  · intro settled
    rw [settled.entered, if_pos rfl]
    exact List.mem_singleton_self _

end Steps

/-! ### One event -/

section Turns

variable {t t' : Teardown} {now : Nat} {dropped : Nat → Prop} {more : List ExitReport}

/-- A call that comes too late changes nothing about the first. -/
theorem first_trigger (called : t.calls ≠ []) (reason : Ending) :
    (t.trigger reason now).calls[0]? = t.calls[0]? := by
  obtain ⟨call, calls⟩ := t.calls_trigger reason now
  rw [calls, List.getElem?_append_left (List.length_pos_iff.mpr called)]

/-- The first call is given up, or stays as it is. -/
theorem first_abandon (number : Nat) : (t.abandon number).calls[0]? = t.calls[0]? ∨
    (t.abandon number).IsForsaken := by
  unfold abandon
  split
  · exact .inl rfl
  · rw [IsForsaken, getElem?_setPhase]
    split
    · cases found : t.calls[0]? with
      | none => exact .inl rfl
      | some call => exact .inr ⟨call.reason, rfl⟩
    · exact .inl rfl

/-- The call that tears the connection down attempts to hand the marker over if the
connection is established by then, and goes to the report at once otherwise. -/
theorem Turn.fires (turn : Turn t now dropped more t') (one : t.OneShot)
    (alive : t.hasFired = false) (fired : t'.hasFired = true) :
    ∃ reason, t'.calls = [{ reason, phase :=
      if t'.isEstablished then .marking (Clock.timer now t'.handOff) else .reporting }] := by
  have uncalled : t.calls = [] := by
    by_contra called
    rw [one.fired_iff.mpr called] at alive
    contradiction
  cases turn with
  | rest calls same addr listening =>
      rw [same, alive] at fired
      contradiction
  | @trigger u reason calls same addr exits =>
      refine ⟨reason, ?_⟩
      simp [Teardown.trigger, same, alive, calls, uncalled]
  | call move =>
      rw [move.hasFired_eq, alive] at fired
      contradiction
  | abandon =>
      rw [hasFired_abandon, alive] at fired
      contradiction

/-- An attempt that goes on has gone on before, or has just begun. -/
theorem Turn.isMarking (turn : Turn t now dropped more t') (one : t.OneShot)
    (marking : t'.IsMarking) :
    t.IsMarking ∨ t.hasFired = false ∧ t'.isEstablished = true := by
  cases turn with
  | rest calls fired addr listening => exact .inl ((isMarking_congr calls).mp marking)
  | @trigger u reason calls fired addr exits =>
      obtain ⟨reason', deadline, found⟩ := marking
      by_cases called : u.calls = []
      · right
        have alive : t.hasFired = false := by
          by_contra torn
          exact one.fired_iff.mp (by simpa using torn) (calls ▸ called)
        refine ⟨alive, ?_⟩
        simp only [Teardown.trigger, fired, alive, called] at found ⊢
        cases established : u.isEstablished with
        | true => rfl
        | false => simp [established] at found
      · left
        rw [first_trigger called, calls] at found
        exact ⟨reason', deadline, found⟩
  | call move =>
      rcases move.marker one with ⟨how, settled⟩ | ⟨-, same⟩
      · exact absurd marking settled.not_isMarking
      · exact .inl (same.mp marking)
  | @abandon number given =>
      obtain ⟨reason, deadline, found⟩ := marking
      rcases t.first_abandon number with same | ⟨reason', abandoned⟩
      · exact .inl ⟨reason, deadline, same ▸ found⟩
      · rw [abandoned] at found
        cases found

/-- An attempt goes on, or ends, or is given up with its call. -/
theorem Turn.of_isMarking (turn : Turn t now dropped more t') (one : t.OneShot)
    (marking : t.IsMarking) :
    t'.IsMarking ∨ (∃ how, MarkerSettled t t' now how) ∨ t'.IsForsaken := by
  have called := one.fired_iff.mp (one.hasFired_of_isMarking marking)
  cases turn with
  | rest calls fired addr listening => exact .inl ((isMarking_congr calls).mpr marking)
  | @trigger u reason calls fired addr exits =>
      obtain ⟨reason', deadline, found⟩ := marking
      refine .inl ⟨reason', deadline, ?_⟩
      rw [first_trigger (calls ▸ called), calls, found]
  | call move =>
      rcases move.marker one with settled | ⟨-, same⟩
      · exact .inr (.inl settled)
      · exact .inl (same.mpr marking)
  | @abandon number given =>
      obtain ⟨reason, deadline, found⟩ := marking
      rcases t.first_abandon number with same | abandoned
      · exact .inl ⟨reason, deadline, same.trans found⟩
      · exact .inr (.inr abandoned)

/-- The report is put into the exits by a call that has come that far. -/
theorem Turn.reporting (turn : Turn t now dropped more t') (one : t.OneShot)
    (reported : more ≠ []) :
    ∃ reason, t.calls[0]? = some { reason, phase := .reporting } := by
  cases turn with
  | call move =>
      obtain rfl := move.eq_zero one
      cases move with
      | reported phase => exact ⟨_, phase⟩
      | queuedToReport phase => exact ⟨_, phase⟩
      | _ => exact absurd (Mailbox.gained_self _) reported
  | _ => exact absurd rfl reported

end Turns

end PeerWire.Teardown

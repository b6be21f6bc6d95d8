import PeerWire.Proofs.Mailbox
import PeerWire.Teardown

/-!
The calls that tear a connection down. Only the first of them ever acts: it alone can
still be at work, and it alone puts anything into a mailbox. `Teardown.Accounts` ties the
reports it has put into the exits to where it stands: none before it has returned, and
after that exactly one, with its own reason, as long as somebody listens.
-/

namespace PeerWire

/-- The call has returned, or nobody waits for it any more. -/
def CallPhase.isOver : CallPhase → Bool
  | .returned _ | .abandoned => true
  | .marking _ | .reporting => false

namespace Teardown

/-- The reason of the first call, which is the reason for the end. -/
def ending? (t : Teardown) : Option Ending :=
  t.calls.head?.map (·.reason)

/-- The first call was dropped before it was over. -/
def IsForsaken (t : Teardown) : Prop :=
  ∃ reason, t.calls[0]? = some { reason, phase := .abandoned }

/-! ### One step of a call -/

/-- What one step of a call can do. -/
inductive CallMove (t : Teardown) (number now : Nat) : Teardown → Prop where
  /-- The marker was handed over, or nobody listens to deliveries. -/
  | marked {reason deadline receipt deliveries}
      (phase : t.calls[number]? = some { reason, phase := .marking deadline })
      (sent : t.deliveries.send (.caller number) (.disconnected t.addr) = (receipt, deliveries))
      (settled : receipt ≠ .full) :
      CallMove t number now ({ t with deliveries }.setPhase number .reporting)
  /-- There was no room for the marker in time. -/
  | gaveUp {reason deadline deliveries}
      (phase : t.calls[number]? = some { reason, phase := .marking deadline })
      (sent : t.deliveries.send (.caller number) (.disconnected t.addr) = (.full, deliveries))
      (due : deadline ≤ now) :
      CallMove t number now
        ({ t with deliveries := deliveries.leave (.caller number) }.setPhase number .reporting)
  | queuedToMark {reason deadline deliveries}
      (phase : t.calls[number]? = some { reason, phase := .marking deadline })
      (sent : t.deliveries.send (.caller number) (.disconnected t.addr) = (.full, deliveries)) :
      CallMove t number now { t with deliveries }
  /-- The report was put into the exits, or nobody listens to them. -/
  | reported {reason receipt exits}
      (phase : t.calls[number]? = some { reason, phase := .reporting })
      (sent : t.exits.send (.caller number) { addr := t.addr, reason } = (receipt, exits))
      (settled : receipt ≠ .full) :
      CallMove t number now ({ t with exits }.setPhase number (.returned true))
  | queuedToReport {reason exits}
      (phase : t.calls[number]? = some { reason, phase := .reporting })
      (sent : t.exits.send (.caller number) { addr := t.addr, reason } = (.full, exits)) :
      CallMove t number now { t with exits }

theorem callMove_of_advance {t t' : Teardown} {number now : Nat}
    (step : t.advance number now = some t') : CallMove t number now t' := by
  unfold advance at step
  split at step
  · rename_i reason deadline phase
    cases sent : t.deliveries.send (.caller number) (.disconnected t.addr) with
    | mk receipt deliveries =>
        rw [sent] at step
        cases receipt with
        | accepted => cases step; exact .marked phase sent (by simp)
        | closed => cases step; exact .marked phase sent (by simp)
        | full =>
            dsimp only at step
            split at step
            · cases step; exact .gaveUp phase sent ‹_›
            · split at step
              · contradiction
              · cases step; exact .queuedToMark phase sent
  · rename_i reason phase
    cases sent : t.exits.send (.caller number) { addr := t.addr, reason } with
    | mk receipt exits =>
        rw [sent] at step
        cases receipt with
        | accepted => cases step; exact .reported phase sent (by simp)
        | closed => cases step; exact .reported phase sent (by simp)
        | full =>
            dsimp only at step
            split at step
            · contradiction
            · cases step; exact .queuedToReport phase sent
  · contradiction

/-! ### Phases -/

theorem getElem?_setPhase (t : Teardown) (number other : Nat) (phase : CallPhase) :
    (t.setPhase number phase).calls[other]? =
      if number = other then (t.calls[other]?).map fun call => { call with phase }
      else t.calls[other]? := by
  simp only [setPhase, List.getElem?_modify]
  split
  · rfl
  · simp

@[simp] theorem length_setPhase (t : Teardown) (number : Nat) (phase : CallPhase) :
    (t.setPhase number phase).calls.length = t.calls.length := by
  simp [setPhase]

@[simp] theorem exits_setPhase (t : Teardown) (number : Nat) (phase : CallPhase) :
    (t.setPhase number phase).exits = t.exits := rfl

@[simp] theorem addr_setPhase (t : Teardown) (number : Nat) (phase : CallPhase) :
    (t.setPhase number phase).addr = t.addr := rfl

@[simp] theorem hasFired_setPhase (t : Teardown) (number : Nat) (phase : CallPhase) :
    (t.setPhase number phase).hasFired = t.hasFired := rfl

@[simp] theorem ending?_setPhase (t : Teardown) (number : Nat) (phase : CallPhase) :
    (t.setPhase number phase).ending? = t.ending? := by
  unfold ending?
  rw [List.head?_eq_getElem?, List.head?_eq_getElem?, getElem?_setPhase]
  split
  · cases t.calls[0]? <;> rfl
  · rfl

theorem ending?_trigger (t : Teardown) (reason : Ending) (now : Nat) :
    (t.trigger reason now).ending? = some (t.ending?.getD reason) := by
  unfold trigger ending?
  cases t.calls with
  | nil => split <;> rfl
  | cons call calls => split <;> rfl

/-- Where nobody has called, the next call gives the reason. -/
theorem ending?_trigger_of_uncalled {t : Teardown} (uncalled : t.ending? = none)
    (reason : Ending) (now : Nat) : (t.trigger reason now).ending? = some reason := by
  rw [ending?_trigger, uncalled]
  rfl

theorem hasEnded_iff {t : Teardown} {number : Nat} {call : TeardownCall}
    (found : t.calls[number]? = some call) :
    t.hasEnded number = true ↔ call.phase.isOver = true := by
  obtain ⟨reason, phase⟩ := call
  unfold hasEnded
  rw [found]
  cases phase <;> simp [CallPhase.isOver]

theorem hasEnded_congr {t t' : Teardown} (calls : t'.calls = t.calls) (number : Nat) :
    t'.hasEnded number = t.hasEnded number := by
  unfold hasEnded
  rw [calls]

@[simp] theorem hasFired_trigger (t : Teardown) (reason : Ending) (now : Nat) :
    (t.trigger reason now).hasFired = true := by
  unfold trigger
  split
  · assumption
  · rfl

/-- A call for the end is one more call, whatever becomes of it. -/
theorem calls_trigger (t : Teardown) (reason : Ending) (now : Nat) :
    ∃ call, (t.trigger reason now).calls = t.calls ++ [call] := by
  unfold trigger
  split <;> exact ⟨_, rfl⟩

@[simp] theorem exits_trigger (t : Teardown) (reason : Ending) (now : Nat) :
    (t.trigger reason now).exits = t.exits := by
  unfold trigger
  split <;> rfl

@[simp] theorem deliveries_trigger (t : Teardown) (reason : Ending) (now : Nat) :
    (t.trigger reason now).deliveries = t.deliveries := by
  unfold trigger
  split <;> rfl

@[simp] theorem addr_trigger (t : Teardown) (reason : Ending) (now : Nat) :
    (t.trigger reason now).addr = t.addr := by
  unfold trigger
  split <;> rfl

@[simp] theorem isEstablished_trigger (t : Teardown) (reason : Ending) (now : Nat) :
    (t.trigger reason now).isEstablished = t.isEstablished := by
  unfold trigger
  split <;> rfl

@[simp] theorem length_trigger (t : Teardown) (reason : Ending) (now : Nat) :
    (t.trigger reason now).calls.length = t.calls.length + 1 := by
  obtain ⟨call, calls⟩ := t.calls_trigger reason now
  simp [calls]

/-! ### What stays as time goes on -/

theorem getElem?_trigger {t : Teardown} {number : Nat} {call : TeardownCall}
    (found : t.calls[number]? = some call) (reason : Ending) (now : Nat) :
    (t.trigger reason now).calls[number]? = some call := by
  obtain ⟨next, calls⟩ := t.calls_trigger reason now
  rw [calls, List.getElem?_append_left (List.getElem?_eq_some_iff.mp found).1, found]

/-- Of two calls, one at work and one that is over, only the former changes its phase. -/
theorem getElem?_setPhase_of_isOver {t u : Teardown} {number other : Nat} {call : TeardownCall}
    {phase : CallPhase} (calls : u.calls = t.calls) (working : t.hasEnded number = false)
    (found : t.calls[other]? = some call) (halted : call.phase.isOver = true) :
    (u.setPhase number phase).calls[other]? = some call := by
  have apart : number ≠ other := by
    rintro rfl
    rw [(hasEnded_iff found).mpr halted] at working
    contradiction
  rw [getElem?_setPhase, if_neg apart, calls, found]

/-- A call takes steps only until it is over. -/
theorem CallMove.hasEnded_eq_false {t t' : Teardown} {number now : Nat}
    (move : CallMove t number now t') : t.hasEnded number = false := by
  cases move with
  | marked phase | gaveUp phase | queuedToMark phase | reported phase | queuedToReport phase =>
      rw [hasEnded, phase]

theorem CallMove.getElem?_of_isOver {t t' : Teardown} {number other now : Nat}
    {call : TeardownCall} (move : CallMove t number now t')
    (found : t.calls[other]? = some call) (halted : call.phase.isOver = true) :
    t'.calls[other]? = some call := by
  have working := move.hasEnded_eq_false
  cases move with
  | marked | gaveUp | reported => exact getElem?_setPhase_of_isOver rfl working found halted
  | queuedToMark | queuedToReport => exact found

theorem getElem?_abandon_of_isOver {t : Teardown} {number other : Nat} {call : TeardownCall}
    (found : t.calls[other]? = some call) (halted : call.phase.isOver = true) :
    (t.abandon number).calls[other]? = some call := by
  unfold abandon
  split
  · exact found
  · rename_i working
    exact getElem?_setPhase_of_isOver rfl (Bool.eq_false_iff.mpr working) found halted

/-- What no later event takes back: calls stay made, and ended once they have. -/
structure Later (t t' : Teardown) : Prop where
  fired : t.hasFired = true → t'.hasFired = true
  ended : ∀ number, t.hasEnded number = true → t'.hasEnded number = true

theorem Later.congr {t t' : Teardown} (calls : t'.calls = t.calls)
    (fired : t'.hasFired = t.hasFired) : t.Later t' where
  fired := by rw [fired]; exact id
  ended number := by rw [hasEnded_congr calls]; exact id

/-- Calls that are over stay as they are. -/
theorem Later.of_kept {t t' : Teardown} (fired : t.hasFired = true → t'.hasFired = true)
    (kept : ∀ (number : Nat) (call : TeardownCall), t.calls[number]? = some call →
      call.phase.isOver = true → t'.calls[number]? = some call) : t.Later t' where
  fired := fired
  ended number halted := by
    cases found : t.calls[number]? with
    | none => simp [hasEnded, found] at halted
    | some call =>
        have isOver := (hasEnded_iff found).mp halted
        exact (hasEnded_iff (kept number call found isOver)).mpr isOver

theorem later_trigger (t : Teardown) (reason : Ending) (now : Nat) :
    t.Later (t.trigger reason now) :=
  .of_kept (fun _ => t.hasFired_trigger reason now) fun _ _ found _ =>
    getElem?_trigger found reason now

theorem CallMove.later {t t' : Teardown} {number now : Nat} (move : CallMove t number now t') :
    t.Later t' := by
  refine .of_kept ?_ fun _ _ found halted => move.getElem?_of_isOver found halted
  cases move <;> exact id

theorem CallMove.hasFired_eq {t t' : Teardown} {number now : Nat}
    (move : CallMove t number now t') : t'.hasFired = t.hasFired := by
  cases move <;> rfl

theorem CallMove.length_eq {t t' : Teardown} {number now : Nat}
    (move : CallMove t number now t') : t'.calls.length = t.calls.length := by
  cases move <;> simp

theorem later_abandon (t : Teardown) (number : Nat) : t.Later (t.abandon number) := by
  refine .of_kept ?_ fun _ _ found halted => getElem?_abandon_of_isOver found halted
  unfold abandon
  split <;> exact id

theorem CallMove.addr_eq {t t' : Teardown} {number now : Nat}
    (move : CallMove t number now t') : t'.addr = t.addr := by
  cases move <;> rfl

theorem CallMove.isEstablished_eq {t t' : Teardown} {number now : Nat}
    (move : CallMove t number now t') : t'.isEstablished = t.isEstablished := by
  cases move <;> rfl

theorem CallMove.ending?_eq {t t' : Teardown} {number now : Nat}
    (move : CallMove t number now t') : t'.ending? = t.ending? := by
  cases move with
  | marked => exact ending?_setPhase _ _ _
  | gaveUp => exact ending?_setPhase _ _ _
  | queuedToMark => rfl
  | reported => exact ending?_setPhase _ _ _
  | queuedToReport => rfl

/-- A call puts nothing but its marker into the deliveries. -/
theorem CallMove.delivered {t t' : Teardown} {number now : Nat} (move : CallMove t number now t') :
    ∀ delivery ∈ t.deliveries.gained t'.deliveries, delivery = .disconnected t.addr := by
  have entered := t.deliveries.gained_send (.caller number) (.disconnected t.addr)
  have marker : ∀ delivery ∈ t.deliveries.gained
      (t.deliveries.send (.caller number) (.disconnected t.addr)).2,
      delivery = .disconnected t.addr := by
    intro delivery inside
    rw [entered] at inside
    split at inside
    · exact List.mem_singleton.mp inside
    · contradiction
  cases move with
  | marked phase sent settled =>
      rw [sent] at marker
      exact marker
  | gaveUp phase sent due =>
      rw [sent] at marker
      exact marker
  | queuedToMark phase sent =>
      rw [sent] at marker
      exact marker
  | reported => exact fun _ inside => by simp [setPhase] at inside
  | queuedToReport => exact fun _ inside => by simp at inside

@[simp] theorem addr_abandon (t : Teardown) (number : Nat) :
    (t.abandon number).addr = t.addr := by
  unfold abandon
  split <;> rfl

@[simp] theorem hasFired_abandon (t : Teardown) (number : Nat) :
    (t.abandon number).hasFired = t.hasFired := by
  unfold abandon
  split <;> rfl

@[simp] theorem isEstablished_abandon (t : Teardown) (number : Nat) :
    (t.abandon number).isEstablished = t.isEstablished := by
  unfold abandon
  split <;> rfl

@[simp] theorem ending?_abandon (t : Teardown) (number : Nat) :
    (t.abandon number).ending? = t.ending? := by
  unfold abandon
  split
  · rfl
  · exact ending?_setPhase _ _ _

theorem length_abandon (t : Teardown) (number : Nat) :
    (t.abandon number).calls.length = t.calls.length := by
  unfold abandon
  split <;> simp

/-! ### The first call -/

/-- Only the first call acts; every later one has returned at once. -/
structure OneShot (t : Teardown) : Prop where
  fired_iff : t.hasFired = true ↔ t.calls ≠ []
  first : ∀ call, t.calls[0]? = some call → call.phase ≠ .returned false
  later : ∀ number call, t.calls[number + 1]? = some call → call.phase = .returned false

/-- Nobody has called yet. -/
theorem OneShot.fresh {t : Teardown} (uncalled : t.calls = []) (alive : t.hasFired = false) :
    t.OneShot where
  fired_iff := by simp [uncalled, alive]
  first call found := by simp [uncalled] at found
  later number call found := by simp [uncalled] at found

theorem OneShot.congr {t t' : Teardown} (one : t.OneShot) (calls : t'.calls = t.calls)
    (fired : t'.hasFired = t.hasFired) : t'.OneShot where
  fired_iff := by rw [calls, fired]; exact one.fired_iff
  first := by rw [calls]; exact one.first
  later := by rw [calls]; exact one.later

theorem OneShot.trigger {t : Teardown} (one : t.OneShot) (reason : Ending) (now : Nat) :
    (t.trigger reason now).OneShot := by
  unfold Teardown.trigger
  by_cases fired : t.hasFired = true
  · have some_call := one.fired_iff.mp fired
    have positive := List.length_pos_iff.mpr some_call
    rw [if_pos fired]
    refine ⟨by simp [fired], fun call found => ?_, fun number call found => ?_⟩
    · dsimp only at found
      rw [List.getElem?_append_left positive] at found
      exact one.first call found
    · dsimp only at found
      by_cases old : number + 1 < t.calls.length
      · rw [List.getElem?_append_left old] at found
        exact one.later number call found
      · rw [List.getElem?_append_right (by omega), List.getElem?_singleton] at found
        split at found
        · cases found; rfl
        · contradiction
  · have no_call : t.calls = [] := by
      by_contra some_call
      exact fired (one.fired_iff.mpr some_call)
    rw [if_neg fired]
    refine ⟨by simp, fun call found => ?_, fun number call found => ?_⟩
    · simp only [no_call, List.nil_append, List.getElem?_cons_zero, Option.some.injEq] at found
      subst found
      split <;> simp
    · simp [no_call] at found

/-- The first call can go into any phase but that of a call that came too late. -/
theorem OneShot.setPhase {t u : Teardown} {number : Nat} {phase : CallPhase} (one : t.OneShot)
    (first : number = 0) (calls : u.calls = t.calls) (fired : u.hasFired = t.hasFired)
    (acting : phase ≠ .returned false) : (u.setPhase number phase).OneShot where
  fired_iff := by
    have same : (u.setPhase number phase).calls ≠ [] ↔ t.calls ≠ [] := by
      rw [← List.length_pos_iff, ← List.length_pos_iff, length_setPhase, calls]
    rw [same, ← one.fired_iff, ← fired]
    rfl
  first call found := by
    rw [getElem?_setPhase, if_pos first] at found
    obtain ⟨old, _, rfl⟩ := Option.map_eq_some_iff.mp found
    exact acting
  later other call found := by
    rw [getElem?_setPhase, if_neg (by omega), calls] at found
    exact one.later other call found

theorem OneShot.uncalled_iff {t : Teardown} (one : t.OneShot) :
    t.ending? = none ↔ t.hasFired = false := by
  have fired := one.fired_iff
  unfold Teardown.ending?
  cases calls : t.calls with
  | nil => simpa [calls] using fired
  | cons call later => simpa [calls] using fired

/-- The first call gives the reason for the end. -/
theorem OneShot.ending?_trigger {t : Teardown} (one : t.OneShot) (unfired : t.hasFired = false)
    (reason : Ending) (now : Nat) : (t.trigger reason now).ending? = some reason :=
  ending?_trigger_of_uncalled (one.uncalled_iff.mpr unfired) reason now

/-- A call that has not ended is the first one. -/
theorem OneShot.eq_zero {t : Teardown} (one : t.OneShot) {number : Nat}
    (open_ : t.hasEnded number = false) (made : number < t.calls.length) : number = 0 := by
  cases number with
  | zero => rfl
  | succ number =>
      have found := List.getElem?_eq_getElem made
      have halted := (hasEnded_iff found).mpr (by simp [one.later number _ found, CallPhase.isOver])
      rw [open_] at halted
      contradiction

theorem CallMove.eq_zero {t t' : Teardown} {number now : Nat} (move : CallMove t number now t')
    (one : t.OneShot) : number = 0 := by
  cases number with
  | zero => rfl
  | succ number =>
      cases move with
      | marked phase _ _ => exact absurd (one.later number _ phase) (by simp)
      | gaveUp phase _ _ => exact absurd (one.later number _ phase) (by simp)
      | queuedToMark phase _ => exact absurd (one.later number _ phase) (by simp)
      | reported phase _ _ => exact absurd (one.later number _ phase) (by simp)
      | queuedToReport phase _ => exact absurd (one.later number _ phase) (by simp)

/-- A call that is under way has begun to tear the connection down. -/
theorem CallMove.hasFired {t t' : Teardown} {number now : Nat} (move : CallMove t number now t')
    (one : t.OneShot) : t.hasFired = true := by
  refine one.fired_iff.mpr ?_
  intro uncalled
  cases move with
  | marked phase | gaveUp phase | queuedToMark phase | reported phase | queuedToReport phase =>
      simp [uncalled] at phase

theorem OneShot.callMove {t t' : Teardown} {number now : Nat} (one : t.OneShot)
    (move : CallMove t number now t') : t'.OneShot := by
  have first := move.eq_zero one
  cases move with
  | marked => exact one.setPhase first rfl rfl nofun
  | gaveUp => exact one.setPhase first rfl rfl nofun
  | queuedToMark => exact one.congr rfl rfl
  | reported => exact one.setPhase first rfl rfl (by simp)
  | queuedToReport => exact one.congr rfl rfl

theorem OneShot.abandon {t : Teardown} (one : t.OneShot) (number : Nat) :
    (t.abandon number).OneShot := by
  unfold Teardown.abandon
  split
  · exact one
  · rename_i open_
    by_cases made : number < t.calls.length
    · exact one.setPhase (one.eq_zero (by simpa using open_) made) rfl rfl nofun
    · refine one.congr ?_ rfl
      simp only [Teardown.setPhase]
      exact List.modify_eq_self (by omega)

/-- The first call returns as the one that acted, unless it is dropped before. -/
theorem OneShot.returned_iff {t : Teardown} (one : t.OneShot) :
    (∃ reason, t.calls[0]? = some { reason, phase := .returned true }) ↔
      t.hasEnded 0 = true ∧ ¬ t.IsForsaken := by
  constructor
  · rintro ⟨reason, returned⟩
    refine ⟨(hasEnded_iff returned).mpr rfl, ?_⟩
    rintro ⟨other, dropped⟩
    rw [returned] at dropped
    cases dropped
  · rintro ⟨ended, kept⟩
    cases found : t.calls[0]? with
    | none => simp [hasEnded, found] at ended
    | some call =>
        obtain ⟨reason, phase⟩ := call
        have halted := (hasEnded_iff found).mp ended
        cases phase with
        | returned acted =>
            cases acted with
            | true => exact ⟨reason, rfl⟩
            | false => exact absurd rfl (one.first _ found)
        | abandoned => exact absurd ⟨reason, found⟩ kept
        | _ => contradiction

/-! ### The reports -/

/-- The reports put into the exits so far are those that the first call owes. -/
structure Accounts (t : Teardown) (put : List ExitReport) : Prop where
  owed : put = [] ∨ ∃ reason, t.calls[0]? = some { reason, phase := .returned true } ∧
    put = [{ addr := t.addr, reason }]
  paid : ∀ reason, t.calls[0]? = some { reason, phase := .returned true } →
    t.exits.isOpen = true → put = [{ addr := t.addr, reason }]

namespace Accounts

theorem length_le_one {t : Teardown} {put : List ExitReport} (accounts : t.Accounts put) :
    put.length ≤ 1 := by
  rcases accounts.owed with rfl | ⟨reason, _, rfl⟩ <;> simp

theorem congr {t t' : Teardown} {put : List ExitReport} (accounts : t.Accounts put)
    (calls : t'.calls = t.calls) (addr : t'.addr = t.addr)
    (listening : t'.exits.isOpen = true → t.exits.isOpen = true) : t'.Accounts put where
  owed := by rw [calls, addr]; exact accounts.owed
  paid reason done heard := by
    rw [calls] at done
    rw [addr]
    exact accounts.paid reason done (listening heard)

/-- As long as the first call has not returned it has put nothing into the exits. -/
theorem of_unreturned {t : Teardown} (unreturned : ∀ reason,
    t.calls[0]? ≠ some { reason, phase := .returned true }) : t.Accounts [] where
  owed := .inl rfl
  paid reason done _ := absurd done (unreturned reason)

theorem eq_nil {t : Teardown} {put : List ExitReport} (accounts : t.Accounts put)
    (unreturned : ∀ reason, t.calls[0]? ≠ some { reason, phase := .returned true }) :
    put = [] := by
  rcases accounts.owed with none | ⟨reason, done, _⟩
  · exact none
  · exact absurd done (unreturned reason)

/-- As long as somebody listens, the report is there exactly if the first call has returned. -/
theorem length_eq_one_iff {t : Teardown} {put : List ExitReport} (accounts : t.Accounts put)
    (listening : t.exits.isOpen = true) :
    put.length = 1 ↔ ∃ reason, t.calls[0]? = some { reason, phase := .returned true } := by
  constructor
  · intro single
    rcases accounts.owed with none | ⟨reason, returned, -⟩
    · rw [none] at single
      contradiction
    · exact ⟨reason, returned⟩
  · rintro ⟨reason, returned⟩
    rw [accounts.paid reason returned listening, List.length_singleton]

/-- A first call that was dropped has not reported. -/
theorem eq_nil_of_isForsaken {t : Teardown} {put : List ExitReport} (accounts : t.Accounts put)
    (forsaken : t.IsForsaken) : put = [] := by
  obtain ⟨reason, dropped⟩ := forsaken
  refine accounts.eq_nil ?_
  intro other returned
  rw [dropped] at returned
  cases returned

theorem trigger {t : Teardown} {put : List ExitReport} (accounts : t.Accounts put)
    (one : t.OneShot) (reason : Ending) (now : Nat) : (t.trigger reason now).Accounts put := by
  unfold Teardown.trigger
  split
  · rename_i fired
    have positive := List.length_pos_iff.mpr (one.fired_iff.mp fired)
    constructor
    · simpa only [List.getElem?_append_left positive] using accounts.owed
    · simpa only [List.getElem?_append_left positive] using accounts.paid
  · rename_i unfired
    have no_call : t.calls = [] := by
      by_contra some_call
      exact unfired (one.fired_iff.mpr some_call)
    have nothing : put = [] := accounts.eq_nil (by simp [no_call])
    rw [nothing]
    refine of_unreturned ?_
    intro other
    simp only [no_call, List.nil_append, List.getElem?_cons_zero]
    split <;> simp

/-- A call that is still at work goes into a phase other than its return. -/
theorem setPhase {t u : Teardown} {put : List ExitReport} {number : Nat} {call : TeardownCall}
    {phase : CallPhase} (accounts : t.Accounts put) (first : number = 0)
    (at_work : t.calls[number]? = some call) (working : call.phase ≠ .returned true)
    (calls : u.calls = t.calls) (acting : phase ≠ .returned true) :
    (u.setPhase number phase).Accounts put := by
  subst first
  have nothing : put = [] := accounts.eq_nil fun other done => by
    rw [at_work] at done
    cases done
    exact working rfl
  rw [nothing]
  refine of_unreturned ?_
  intro other
  rw [getElem?_setPhase, if_pos rfl, calls, at_work]
  simp [acting]

theorem callMove {t t' : Teardown} {put : List ExitReport} {number now : Nat}
    (accounts : t.Accounts put) (one : t.OneShot) (move : CallMove t number now t') :
    t'.Accounts (put ++ t.exits.gained t'.exits) := by
  have first := move.eq_zero one
  cases move with
  | marked phase sent settled =>
      rw [exits_setPhase, t.exits.gained_self, List.append_nil]
      exact accounts.setPhase first phase nofun rfl nofun
  | gaveUp phase sent due =>
      rw [exits_setPhase, t.exits.gained_self, List.append_nil]
      exact accounts.setPhase first phase nofun rfl nofun
  | queuedToMark phase sent =>
      rw [t.exits.gained_self, List.append_nil]
      exact accounts.congr rfl rfl id
  | @reported reason receipt exits phase sent settled =>
      subst first
      have nothing : put = [] := accounts.eq_nil fun other done => by
        rw [phase] at done
        cases done
      have entered := t.exits.gained_send (.caller 0) { addr := t.addr, reason }
      have heard := t.exits.isOpen_send (.caller 0) { addr := t.addr, reason }
      have deaf := t.exits.send_eq_closed_iff (.caller 0) { addr := t.addr, reason }
      rw [sent] at entered heard deaf
      dsimp only at entered heard deaf
      have done : ∀ other, (({ t with exits } : Teardown).setPhase 0 (.returned true)).calls[0]? =
          some { reason := other, phase := .returned true } ↔ other = reason := by
        intro other
        rw [getElem?_setPhase, if_pos rfl]
        simp [phase, eq_comm]
      rw [nothing, List.nil_append, exits_setPhase, entered]
      constructor
      · rw [addr_setPhase]
        split
        · exact .inr ⟨reason, (done reason).mpr rfl, rfl⟩
        · exact .inl rfl
      · intro other returned listening
        rw [exits_setPhase] at listening
        dsimp only at listening
        rw [heard] at listening
        rw [(done other).mp returned, addr_setPhase]
        cases receipt with
        | accepted => rfl
        | full => exact absurd rfl settled
        | closed => rw [deaf.mp rfl] at listening; contradiction
  | @queuedToReport reason exits phase sent =>
      have entered := t.exits.gained_send (.caller number) { addr := t.addr, reason }
      have heard := t.exits.isOpen_send (.caller number) { addr := t.addr, reason }
      rw [sent] at entered heard
      dsimp only at entered heard
      rw [entered, if_neg nofun, List.append_nil]
      exact accounts.congr rfl rfl (by dsimp only; rw [heard]; exact id)

theorem abandon {t : Teardown} {put : List ExitReport} (accounts : t.Accounts put)
    (one : t.OneShot) (number : Nat) : (t.abandon number).Accounts put := by
  unfold Teardown.abandon
  split
  · exact accounts
  · rename_i open_
    by_cases made : number < t.calls.length
    · have first := one.eq_zero (by simpa using open_) made
      have found := List.getElem?_eq_getElem made
      have working : t.calls[number].phase ≠ .returned true := fun returned =>
        open_ ((hasEnded_iff found).mpr (by simp [returned, CallPhase.isOver]))
      exact accounts.setPhase first found working rfl nofun
    · refine accounts.congr ?_ rfl id
      simp only [Teardown.setPhase]
      exact List.modify_eq_self (by omega)

end Accounts

/-! ### Any event -/

/-- What an event at the given moment can do to the teardown, and which reports it puts
into the exits by that. Of the calls, those that are `dropped` may be given up. -/
inductive Turn (t : Teardown) (now : Nat) (dropped : Nat → Prop) :
    List ExitReport → Teardown → Prop where
  /-- The calls stay where they are. -/
  | rest {t' : Teardown} (calls : t'.calls = t.calls) (fired : t'.hasFired = t.hasFired)
      (addr : t'.addr = t.addr) (listening : t'.exits.isOpen = true → t.exits.isOpen = true) :
      Turn t now dropped [] t'
  | trigger {u : Teardown} {reason : Ending} (calls : u.calls = t.calls)
      (fired : u.hasFired = t.hasFired) (addr : u.addr = t.addr) (exits : u.exits = t.exits) :
      Turn t now dropped [] (u.trigger reason now)
  | call {t' : Teardown} {number : Nat} (move : CallMove t number now t') :
      Turn t now dropped (t.exits.gained t'.exits) t'
  | abandon {number : Nat} (given : dropped number) : Turn t now dropped [] (t.abandon number)

/-- The first call stays the first. -/
theorem Turn.ending? {t t' : Teardown} {now : Nat} {dropped : Nat → Prop}
    {more : List ExitReport} (turn : Turn t now dropped more t') {reason : Ending}
    (first : t.ending? = some reason) : t'.ending? = some reason := by
  cases turn with
  | rest calls fired addr listening =>
      unfold Teardown.ending? at first ⊢
      rwa [calls]
  | trigger calls fired addr exits =>
      rw [ending?_trigger]
      unfold Teardown.ending? at first ⊢
      rw [calls, first]
      rfl
  | call move => rwa [move.ending?_eq]
  | abandon => rwa [ending?_abandon]

theorem Turn.addr_eq {t t' : Teardown} {now : Nat} {dropped : Nat → Prop}
    {more : List ExitReport} (turn : Turn t now dropped more t') : t'.addr = t.addr := by
  cases turn with
  | rest calls fired addr listening => exact addr
  | trigger calls fired addr exits => rw [addr_trigger, addr]
  | call move => exact move.addr_eq
  | abandon => exact addr_abandon _ _

theorem Turn.later {t t' : Teardown} {now : Nat} {dropped : Nat → Prop}
    {more : List ExitReport} (turn : Turn t now dropped more t') : t.Later t' := by
  cases turn with
  | rest calls fired addr listening => exact .congr calls fired
  | @trigger u reason calls fired addr exits =>
      have same : t.Later u := .congr calls fired
      exact ⟨fun before => (u.later_trigger reason now).fired (same.fired before),
        fun number halted => (u.later_trigger reason now).ended number (same.ended number halted)⟩
  | call move => exact move.later
  | abandon => exact later_abandon _ _

/-- A call that is over stays as it is. -/
theorem Turn.getElem?_of_isOver {t t' : Teardown} {now other : Nat} {dropped : Nat → Prop}
    {more : List ExitReport} {call : TeardownCall} (turn : Turn t now dropped more t')
    (found : t.calls[other]? = some call) (halted : call.phase.isOver = true) :
    t'.calls[other]? = some call := by
  cases turn with
  | rest calls => rw [calls, found]
  | trigger calls => exact getElem?_trigger (by rw [calls, found]) _ now
  | call move => exact move.getElem?_of_isOver found halted
  | abandon => exact getElem?_abandon_of_isOver found halted

/-- Nobody takes up a call again that was dropped. -/
theorem Turn.forsaken {t t' : Teardown} {now : Nat} {dropped : Nat → Prop}
    {more : List ExitReport} (turn : Turn t now dropped more t') (forsaken : t.IsForsaken) :
    t'.IsForsaken :=
  let ⟨reason, found⟩ := forsaken
  ⟨reason, turn.getElem?_of_isOver found rfl⟩

/-- No call is ever unmade. -/
theorem Turn.length_le {t t' : Teardown} {now : Nat} {dropped : Nat → Prop}
    {more : List ExitReport} (turn : Turn t now dropped more t') :
    t.calls.length ≤ t'.calls.length := by
  cases turn with
  | rest calls fired addr listening => exact Nat.le_of_eq (by rw [calls])
  | trigger calls fired addr exits =>
      rw [length_trigger, calls]
      exact Nat.le_succ _
  | call move => exact Nat.le_of_eq move.length_eq.symm
  | abandon => exact Nat.le_of_eq (length_abandon _ _).symm

theorem OneShot.turn {t t' : Teardown} {now : Nat} {dropped : Nat → Prop}
    {more : List ExitReport} (one : t.OneShot) (turn : Turn t now dropped more t') :
    t'.OneShot := by
  cases turn with
  | rest calls fired addr listening => exact one.congr calls fired
  | trigger calls fired addr exits => exact (one.congr calls fired).trigger _ now
  | call move => exact one.callMove move
  | abandon => exact one.abandon _

theorem Accounts.turn {t t' : Teardown} {now : Nat} {dropped : Nat → Prop}
    {put more : List ExitReport} (accounts : t.Accounts put) (one : t.OneShot)
    (turn : Turn t now dropped more t') :
    t'.Accounts (put ++ more) := by
  cases turn with
  | rest calls fired addr listening =>
      rw [List.append_nil]
      exact accounts.congr calls addr listening
  | trigger calls fired addr exits =>
      rw [List.append_nil]
      exact (accounts.congr calls addr (by rw [exits]; exact id)).trigger
        (one.congr calls fired) _ now
  | call move => exact accounts.callMove one move
  | abandon =>
      rw [List.append_nil]
      exact accounts.abandon one _

/-! ### Calls that are waited for -/

/-- No caller has stopped waiting before its call was over. -/
def Unabandoned (t : Teardown) : Prop :=
  ∀ (number : Nat) (call : TeardownCall), t.calls[number]? = some call → call.phase ≠ .abandoned

namespace Unabandoned

theorem congr {t t' : Teardown} (kept : t.Unabandoned) (calls : t'.calls = t.calls) :
    t'.Unabandoned := by
  unfold Unabandoned
  rw [calls]
  exact kept

theorem trigger {t : Teardown} (kept : t.Unabandoned) (reason : Ending) (now : Nat) :
    (t.trigger reason now).Unabandoned := by
  have fresh : ∃ phase : CallPhase, phase ≠ .abandoned ∧
      (t.trigger reason now).calls = t.calls ++ [({ reason, phase } : TeardownCall)] := by
    unfold Teardown.trigger
    split
    · exact ⟨.returned false, nofun, rfl⟩
    · refine ⟨_, ?_, rfl⟩
      split <;> exact nofun
  obtain ⟨phase, waited, calls⟩ := fresh
  intro number call found
  rw [calls, List.getElem?_append] at found
  split at found
  · exact kept number call found
  · rw [List.getElem?_singleton] at found
    split at found
    · cases found
      exact waited
    · contradiction

theorem setPhase {t u : Teardown} {number : Nat} {phase : CallPhase} (kept : t.Unabandoned)
    (calls : u.calls = t.calls) (waited : phase ≠ .abandoned) :
    (u.setPhase number phase).Unabandoned := by
  intro other call found
  rw [getElem?_setPhase, calls] at found
  split at found
  · obtain ⟨old, _, rfl⟩ := Option.map_eq_some_iff.mp found
    exact waited
  · exact kept other call found

theorem callMove {t t' : Teardown} {number now : Nat} (kept : t.Unabandoned)
    (move : CallMove t number now t') : t'.Unabandoned := by
  cases move with
  | marked => exact kept.setPhase rfl nofun
  | gaveUp => exact kept.setPhase rfl nofun
  | queuedToMark => exact kept.congr rfl
  | reported => exact kept.setPhase rfl nofun
  | queuedToReport => exact kept.congr rfl

/-- Only calls that are over are given up. -/
theorem turn {t t' : Teardown} {now : Nat} {dropped : Nat → Prop} {more : List ExitReport}
    (kept : t.Unabandoned) (turn : Turn t now dropped more t')
    (seen : ∀ number, dropped number → t.hasEnded number = true) : t'.Unabandoned := by
  cases turn with
  | rest calls fired addr listening => exact kept.congr calls
  | trigger calls fired addr exits => exact (kept.congr calls).trigger _ now
  | call move => exact kept.callMove move
  | @abandon number given =>
      unfold Teardown.abandon
      rw [if_pos (seen number given)]
      exact kept

/-- A call that is over has returned. -/
theorem returned {t : Teardown} (kept : t.Unabandoned) (one : t.OneShot)
    (ended : t.hasEnded 0 = true) :
    ∃ reason, t.calls[0]? = some { reason, phase := .returned true } := by
  refine one.returned_iff.mpr ⟨ended, ?_⟩
  rintro ⟨reason, dropped⟩
  exact kept 0 _ dropped rfl

end Unabandoned

end Teardown

end PeerWire

import PeerWire.Proofs.Mailbox.Place
import PeerWire.Proofs.Teardown.Marker

/-!
Calls for the end that race, all of them waited for. A caller may be stopped between any two
of its steps, and also between the two halves of `Teardown.trigger`: the call that comes first
has fired the teardown with its first step, which also ends the tasks of the connection, and
looks with its second whether the connection is established by then. Others use the same two
mailboxes meanwhile.

`Stands` says where the first call stands, and that all the others have returned. Only its own
steps take it any further.
-/

namespace PeerWire.Teardown

/-! ### One step of the first call -/

section Advancing

variable {t : Teardown} {number now : Nat} {reason : Ending} {deadline : Nat}

theorem advance_of_marked
    (phase : t.calls[number]? = some { reason, phase := .marking deadline })
    (settled : (t.deliveries.send (.caller number) (.disconnected t.addr)).1 ≠ .full) :
    t.advance number now = some (({ t with
      deliveries := (t.deliveries.send (.caller number) (.disconnected t.addr)).2 } :
        Teardown).setPhase number .reporting) := by
  unfold advance
  rw [phase]
  dsimp only
  split
  · rfl
  · rfl
  · contradiction

theorem advance_of_due (phase : t.calls[number]? = some { reason, phase := .marking deadline })
    (full : (t.deliveries.send (.caller number) (.disconnected t.addr)).1 = .full)
    (due : deadline ≤ now) :
    t.advance number now = some (({ t with
      deliveries := (t.deliveries.send (.caller number) (.disconnected t.addr)).2.leave
        (.caller number) } : Teardown).setPhase number .reporting) := by
  unfold advance
  rw [phase]
  dsimp only
  rw [full]
  exact if_pos due

/-- A call that finds no room for its marker in time is in line from then on. -/
theorem advance_of_early (phase : t.calls[number]? = some { reason, phase := .marking deadline })
    (full : (t.deliveries.send (.caller number) (.disconnected t.addr)).1 = .full)
    (early : now < deadline) :
    (t.advance number now).getD t = { t with
      deliveries := (t.deliveries.send (.caller number) (.disconnected t.addr)).2 } := by
  unfold advance
  rw [phase]
  dsimp only
  rw [full]
  dsimp only
  rw [if_neg (Nat.not_le.mpr early)]
  split
  · rename_i waits
    rw [Option.getD_none, Mailbox.send_of_full full, Mailbox.join_of_mem waits]
  · rfl

theorem advance_of_reported
    (phase : t.calls[number]? = some { reason, phase := .reporting })
    (settled : (t.exits.send (.caller number) { addr := t.addr, reason }).1 ≠ .full) :
    t.advance number now = some (({ t with
      exits := (t.exits.send (.caller number) { addr := t.addr, reason }).2 } :
        Teardown).setPhase number (.returned true)) := by
  unfold advance
  rw [phase]
  dsimp only
  split
  · rfl
  · rfl
  · contradiction

/-- A call that finds no room for its report is in line from then on. -/
theorem advance_of_unheard
    (phase : t.calls[number]? = some { reason, phase := .reporting })
    (full : (t.exits.send (.caller number) { addr := t.addr, reason }).1 = .full) :
    (t.advance number now).getD t = { t with
      exits := (t.exits.send (.caller number) { addr := t.addr, reason }).2 } := by
  unfold advance
  rw [phase]
  dsimp only
  rw [full]
  dsimp only
  split
  · rename_i waits
    rw [Option.getD_none, Mailbox.send_of_full full, Mailbox.join_of_mem waits]
  · rfl

theorem advance_of_returned {acted : Bool}
    (phase : t.calls[number]? = some { reason, phase := .returned acted }) :
    t.advance number now = none := by
  unfold advance
  rw [phase]

theorem advance_of_unmade (unmade : t.calls[number]? = none) : t.advance number now = none := by
  unfold advance
  rw [unmade]

/-- A call ends the reception of neither mailbox. -/
theorem CallMove.isOpen_eq {t' : Teardown} (move : CallMove t number now t') :
    t'.exits.isOpen = t.exits.isOpen ∧ t'.deliveries.isOpen = t.deliveries.isOpen := by
  cases move with
  | marked phase sent => exact ⟨rfl, (congrArg (·.2.isOpen) sent).symm.trans (by simp)⟩
  | gaveUp phase sent => exact ⟨rfl, (congrArg (·.2.isOpen) sent).symm.trans (by simp)⟩
  | queuedToMark phase sent => exact ⟨rfl, (congrArg (·.2.isOpen) sent).symm.trans (by simp)⟩
  | reported phase sent => exact ⟨(congrArg (·.2.isOpen) sent).symm.trans (by simp), rfl⟩
  | queuedToReport phase sent => exact ⟨(congrArg (·.2.isOpen) sent).symm.trans (by simp), rfl⟩

end Advancing

/-! ### A teardown among callers that race -/

/-- A teardown at a moment. -/
structure Race where
  teardown : Teardown
  now : Nat := 0
  /-- The first call has yet to look whether the connection is established. -/
  isUndecided : Bool := false
deriving DecidableEq, Repr

namespace Race

/-- What can happen to a teardown. -/
inductive Event where
  /-- Somebody calls for the end, and swaps the flag. -/
  | call (reason : Ending)
  /-- The call takes its next step, if it can. -/
  | step (number : Nat)
  | establish
  | wait (ms : Nat)
  /-- Others do something to the exits. -/
  | exits (stir : Mailbox.Stir ExitReport)
  /-- Others do something to the deliveries. -/
  | deliveries (stir : Mailbox.Stir Delivery)
deriving DecidableEq, Repr

/-- The reason that a call for the end gives. -/
def Event.called? : Event → Option Ending
  | .call reason => some reason
  | _ => none

/-- A teardown that nobody has called for yet. -/
def start (addr : String) (handOff exits deliveries : Nat) : Race where
  teardown := {
    addr
    handOff
    exits := .ofCapacity exits
    deliveries := .ofCapacity deliveries }

/-- Somebody calls for the end: the first half of the first call, and the whole of any other. -/
def call (r : Race) (reason : Ending) : Race :=
  if r.teardown.hasFired then { r with teardown := r.teardown.trigger reason r.now }
  else
    { r with
      teardown := { r.teardown with
        hasFired := true
        calls := r.teardown.calls ++ [{ reason, phase := .reporting }] }
      isUndecided := true }

/-- The second half: the first call looks whether the connection is established. -/
def check (r : Race) : Race :=
  { r with
    teardown := r.teardown.setPhase 0
      (if r.teardown.isEstablished then .marking (Clock.timer r.now r.teardown.handOff)
        else .reporting)
    isUndecided := false }

/-- A call takes its next step, if it can. -/
def step (r : Race) (number : Nat) : Race :=
  if r.isUndecided = true ∧ number = 0 then r.check
  else { r with teardown := (r.teardown.advance number r.now).getD r.teardown }

/-- What an event leads to. -/
def after (r : Race) : Event → Race
  | .call reason => r.call reason
  | .step number => r.step number
  | .establish => { r with teardown := r.teardown.markEstablished }
  | .wait ms => { r with now := r.now + ms }
  | .exits stir =>
      { r with teardown := { r.teardown with exits := r.teardown.exits.stirred stir } }
  | .deliveries stir =>
      { r with teardown :=
        { r.teardown with deliveries := r.teardown.deliveries.stirred stir } }

/-- A history of events, one after the other. -/
def run (r : Race) (history : List Event) : Race :=
  history.foldl after r

/-- What a call puts into one of the two mailboxes. -/
inductive Posting where
  | delivery (number : Nat) (delivery : Delivery)
  | report (number : Nat) (report : ExitReport)
deriving DecidableEq, Repr

/-- What the call puts into the mailboxes from one moment to the next. -/
def entered (r r' : Race) (number : Nat) : List Posting :=
  (r.teardown.deliveries.gained r'.teardown.deliveries).map (.delivery number) ++
    (r.teardown.exits.gained r'.teardown.exits).map (.report number)

/-- What a call puts into the mailboxes with an event. -/
def posted (r : Race) (event : Event) : List Posting :=
  match event with
  | .call _ => r.entered (r.after event) r.teardown.nextCall
  | .step number => r.entered (r.after event) number
  | _ => []

/-- All that calls put into the mailboxes along a history, in order. -/
def postings (r : Race) : List Event → List Posting
  | [] => []
  | event :: history => r.posted event ++ (r.after event).postings history

/-- The two halves of the first call make up the whole. -/
theorem step_call {r : Race} (uncalled : r.teardown.calls = [])
    (alive : r.teardown.hasFired = false) (reason : Ending) :
    ((r.call reason).step 0).teardown = r.teardown.trigger reason r.now := by
  simp [call, step, check, trigger, setPhase, alive, uncalled]

section Histories

variable (r : Race) (past later : List Event) (event : Event)

@[simp] theorem run_nil : r.run [] = r := rfl

@[simp] theorem run_cons : r.run (event :: later) = (r.after event).run later := rfl

@[simp] theorem run_append : r.run (past ++ later) = (r.run past).run later :=
  List.foldl_append

@[simp] theorem postings_append :
    r.postings (past ++ later) = r.postings past ++ (r.run past).postings later := by
  induction past generalizing r with
  | nil => rfl
  | cons first rest ih => rw [List.cons_append, postings, postings, ih, run_cons, List.append_assoc]

end Histories

theorem step_of_stuck {r : Race} {number : Nat} (decided : ¬ (r.isUndecided = true ∧ number = 0))
    (stuck : r.teardown.advance number r.now = none) : r.step number = r := by
  unfold step
  rw [if_neg decided, stuck]
  rfl

theorem called_cons (event : Event) (history : List Event) :
    (event :: history).filterMap Event.called? =
      event.called?.toList ++ history.filterMap Event.called? := by
  cases event <;> rfl

theorem called_around (past later : List Event) (number : Nat) :
    (past ++ .step number :: later).filterMap Event.called? =
      past.filterMap Event.called? ++ later.filterMap Event.called? := by
  rw [List.filterMap_append, called_cons]
  rfl

theorem entered_of_same {r r' : Race} {number : Nat}
    (deliveries : r'.teardown.deliveries = r.teardown.deliveries)
    (exits : r'.teardown.exits = r.teardown.exits) : r.entered r' number = [] := by
  simp [entered, deliveries, exits]

/-! ### What no event changes -/

/-- What an event leaves as it is. -/
structure Kept (r : Race) (event : Event) (r' : Race) : Prop where
  addr : r'.teardown.addr = r.teardown.addr
  handOff : r'.teardown.handOff = r.teardown.handOff
  fired : r.teardown.hasFired = true → r'.teardown.hasFired = true
  established : r'.teardown.isEstablished = true ↔
    r.teardown.isEstablished = true ∨ event = .establish
  deaf : r.teardown.exits.isOpen = false → r'.teardown.exits.isOpen = false
  shut : r.teardown.deliveries.isOpen = false → r'.teardown.deliveries.isOpen = false

theorem kept_call (r : Race) (reason : Ending) : r.Kept (.call reason) (r.call reason) := by
  unfold call
  split
  · exact ⟨addr_trigger .., handOff_trigger .., fun _ => hasFired_trigger .., by simp, by simp,
      by simp⟩
  · exact ⟨rfl, rfl, fun _ => rfl, by simp, id, id⟩

theorem kept_step (r : Race) (number : Nat) : r.Kept (.step number) (r.step number) := by
  unfold step
  split
  · exact ⟨rfl, rfl, id, by simp [check, setPhase], id, id⟩
  · cases next : r.teardown.advance number r.now with
    | none => exact ⟨rfl, rfl, id, by simp, id, id⟩
    | some t =>
        have move := callMove_of_advance next
        have listening := move.isOpen_eq
        refine ⟨move.addr_eq, move.handOff_eq, move.hasFired_eq.trans,
          by simp [move.isEstablished_eq], ?_, ?_⟩
        · exact listening.1.trans
        · exact listening.2.trans

theorem kept_after (r : Race) (event : Event) : r.Kept event (r.after event) := by
  cases event with
  | call reason => exact r.kept_call reason
  | step number => exact r.kept_step number
  | establish => exact ⟨rfl, rfl, id, by simp [after, markEstablished], id, id⟩
  | wait ms => exact ⟨rfl, rfl, id, by simp [after], id, id⟩
  | exits stir => exact ⟨rfl, rfl, id, by simp [after], Mailbox.shut_stirred, id⟩
  | deliveries stir => exact ⟨rfl, rfl, id, by simp [after], id, Mailbox.shut_stirred⟩

section Keeping

variable (r : Race) (history : List Event)

theorem addr_run : (r.run history).teardown.addr = r.teardown.addr := by
  induction history generalizing r with
  | nil => rfl
  | cons event rest ih => rw [run_cons, ih, (r.kept_after event).addr]

theorem handOff_run : (r.run history).teardown.handOff = r.teardown.handOff := by
  induction history generalizing r with
  | nil => rfl
  | cons event rest ih => rw [run_cons, ih, (r.kept_after event).handOff]

theorem established_run : (r.run history).teardown.isEstablished = true ↔
    r.teardown.isEstablished = true ∨ .establish ∈ history := by
  induction history generalizing r with
  | nil => simp [run]
  | cons event rest ih =>
      rw [run_cons, ih, (r.kept_after event).established, List.mem_cons, or_assoc,
        eq_comm (b := event)]

variable {r} in
theorem fired_run (fired : r.teardown.hasFired = true) :
    (r.run history).teardown.hasFired = true := by
  induction history generalizing r with
  | nil => exact fired
  | cons event rest ih => exact ih ((r.kept_after event).fired fired)

variable {r} in
theorem deaf_run (deaf : r.teardown.exits.isOpen = false) :
    (r.run history).teardown.exits.isOpen = false := by
  induction history generalizing r with
  | nil => exact deaf
  | cons event rest ih => exact ih ((r.kept_after event).deaf deaf)

end Keeping

/-! ### Before the first call -/

/-- Nobody has called for the end. -/
structure Untouched (r : Race) : Prop where
  alive : r.teardown.hasFired = false
  uncalled : r.teardown.calls = []
  decided : r.isUndecided = false

namespace Untouched

variable {r : Race}

theorem start (addr : String) (handOff exits deliveries : Nat) :
    (Race.start addr handOff exits deliveries).Untouched := ⟨rfl, rfl, rfl⟩

theorem step_eq (untouched : r.Untouched) (number : Nat) : r.step number = r := by
  have decided : ¬ (r.isUndecided = true ∧ number = 0) := by simp [untouched.decided]
  exact step_of_stuck decided (advance_of_unmade (by simp [untouched.uncalled]))

theorem after (untouched : r.Untouched) {event : Event} (quiet : event.called? = none) :
    (r.after event).Untouched ∧ r.posted event = [] := by
  cases event with
  | call reason => contradiction
  | step number =>
      have same : r.after (.step number) = r := untouched.step_eq number
      refine ⟨by rwa [same], ?_⟩
      rw [posted, same]
      exact entered_of_same rfl rfl
  | _ => exact ⟨⟨untouched.alive, untouched.uncalled, untouched.decided⟩, rfl⟩

theorem run (untouched : r.Untouched) {history : List Event}
    (quiet : ∀ event ∈ history, event.called? = none) :
    (r.run history).Untouched ∧ r.postings history = [] := by
  induction history generalizing r with
  | nil => exact ⟨untouched, rfl⟩
  | cons event rest ih =>
      obtain ⟨still, nothing⟩ := untouched.after (quiet event (List.mem_cons_self ..))
      rw [postings, nothing]
      exact ih still fun later inside => quiet later (List.mem_cons_of_mem _ inside)

end Untouched

/-! ### After the first call -/

/-- The call that came first has come to this phase; the late ones have all returned. -/
structure Stands (r : Race) (reason : Ending) (late : List Ending) (phase : CallPhase)
    (undecided : Bool) : Prop where
  fired : r.teardown.hasFired = true
  calls : r.teardown.calls =
    { reason, phase } :: late.map fun reason => { reason, phase := .returned false }
  undecided : r.isUndecided = undecided

theorem Untouched.call {r : Race} (untouched : r.Untouched) (reason : Ending) :
    (r.after (.call reason)).Stands reason [] .reporting true ∧ r.posted (.call reason) = [] := by
  have next : r.after (.call reason) = { r with
      teardown := { r.teardown with hasFired := true, calls := [{ reason, phase := .reporting }] }
      isUndecided := true } := by
    simp [Race.after, Race.call, untouched.alive, untouched.uncalled]
  refine ⟨?_, ?_⟩
  · rw [next]
    exact ⟨rfl, rfl, rfl⟩
  · rw [posted, next]
    exact entered_of_same rfl rfl

/-- The first call fires the teardown, and nothing before it does. -/
theorem Untouched.fired_iff {r : Race} (untouched : r.Untouched) {before tail : List Event}
    {reason : Ending} (quiet : ∀ event ∈ before, event.called? = none) {past later : List Event}
    (split : before ++ .call reason :: tail = past ++ later) :
    (r.run past).teardown.hasFired = true ↔ before.length < past.length := by
  rcases List.append_eq_append_iff.mp split with ⟨more, rfl, rest⟩ | ⟨more, rfl, -⟩
  · cases more with
    | nil =>
        rw [List.append_nil, (untouched.run quiet).1.alive]
        simp
    | cons event more =>
        obtain ⟨rfl, -⟩ := List.cons.inj rest
        have fired := ((untouched.run quiet).1.call reason).1.fired
        rw [run_append, run_cons]
        simpa using fired_run more fired
  · have still := (untouched.run fun event inside => quiet event (List.mem_append_left _ inside)).1
    rw [still.alive]
    simp

namespace Stands

variable {r : Race} {reason : Ending} {late : List Ending} {phase : CallPhase}
  {undecided : Bool} {event : Event}

theorem first (stands : r.Stands reason late phase undecided) :
    r.teardown.calls[0]? = some ⟨reason, phase⟩ := by
  rw [stands.calls]
  rfl

/-- A late call has nothing left to do. -/
theorem step_late (stands : r.Stands reason late phase undecided) {number : Nat}
    (other : number ≠ 0) : r.step number = r := by
  obtain ⟨number, rfl⟩ := Nat.exists_eq_succ_of_ne_zero other
  refine step_of_stuck (fun undecided => other undecided.2) ?_
  cases found : late[number]? with
  | none => exact advance_of_unmade (by simp [stands.calls, found])
  | some reason =>
      have returned : r.teardown.calls[number + 1]? =
          some { reason, phase := .returned false } := by simp [stands.calls, found]
      exact advance_of_returned returned

/-- A call that comes too late is the only thing that anybody but the first call adds. -/
theorem aside (stands : r.Stands reason late phase undecided) (other : event ≠ .step 0) :
    (r.after event).Stands reason (late ++ event.called?.toList) phase undecided := by
  cases event with
  | call reason' =>
      refine ⟨?_, ?_, ?_⟩
      · simp [Race.after, Race.call, stands.fired]
      · simp [Race.after, Race.call, Event.called?, trigger, stands.fired, stands.calls]
      · simp [Race.after, Race.call, stands.fired, stands.undecided]
  | step number =>
      have same : r.after (.step number) = r := stands.step_late fun zero => other (zero ▸ rfl)
      simpa [same, Event.called?] using stands
  | _ =>
      refine ⟨stands.fired, ?_, stands.undecided⟩
      exact stands.calls.trans (by simp [Event.called?])

/-- Nobody but the first call puts anything into a mailbox. -/
theorem posted_aside (stands : r.Stands reason late phase undecided) (other : event ≠ .step 0) :
    r.posted event = [] := by
  cases event with
  | call reason' =>
      refine entered_of_same ?_ ?_
      · simp [Race.after, Race.call, stands.fired]
      · simp [Race.after, Race.call, stands.fired]
  | step number =>
      have same : r.after (.step number) = r := stands.step_late fun zero => other (zero ▸ rfl)
      rw [posted, same]
      exact entered_of_same rfl rfl
  | _ => rfl

theorem deliveries_aside (stands : r.Stands reason late phase undecided)
    (other : event ≠ .step 0) :
    (r.after event).teardown.deliveries = r.teardown.deliveries ∨
      ∃ stir, (r.after event).teardown.deliveries = r.teardown.deliveries.stirred stir := by
  cases event with
  | call reason' => exact .inl (by simp [Race.after, Race.call, stands.fired])
  | step number =>
      have same : r.after (.step number) = r := stands.step_late fun zero => other (zero ▸ rfl)
      exact .inl (by rw [same])
  | deliveries stir => exact .inr ⟨stir, rfl⟩
  | _ => exact .inl rfl

/-- The first call goes into another phase. -/
theorem setPhase (stands : r.Stands reason late phase undecided) {t : Teardown}
    (calls : t.calls = r.teardown.calls) (fired : t.hasFired = r.teardown.hasFired)
    (next : CallPhase) :
    ({ r with teardown := t.setPhase 0 next } : Race).Stands reason late next undecided := by
  refine ⟨fired.trans stands.fired, ?_, stands.undecided⟩
  simp [Teardown.setPhase, calls, stands.calls]

/-- As long as the first call takes no step, it stands where it did. -/
theorem run_aside (stands : r.Stands reason late phase undecided) {history : List Event}
    (idle : .step 0 ∉ history) :
    (r.run history).Stands reason (late ++ history.filterMap Event.called?) phase undecided ∧
      r.postings history = [] := by
  induction history generalizing r late with
  | nil => exact ⟨by rwa [List.filterMap_nil, List.append_nil], rfl⟩
  | cons event rest ih =>
      have other := (List.ne_of_not_mem_cons idle).symm
      obtain ⟨still, nothing⟩ := ih (stands.aside other) (List.not_mem_of_not_mem_cons idle)
      rw [postings, stands.posted_aside other, nothing]
      refine ⟨?_, rfl⟩
      rw [called_cons, ← List.append_assoc]
      exact still

/-- A call that has not returned has a step to take. -/
theorem not_ended (stands : r.Stands reason late phase undecided) (working : phase.isOver = false) :
    r.teardown.hasEnded 0 ≠ true := by
  intro ended
  rw [hasEnded_iff stands.first, working] at ended
  contradiction

/-! ### The look whether the connection is established -/

/-- The first call comes to look, since it is waited for. -/
theorem exists_check (stands : r.Stands reason late .reporting true) {history : List Event}
    (ended : (r.run history).teardown.hasEnded 0 = true) :
    ∃ between rest, history = between ++ .step 0 :: rest ∧ .step 0 ∉ between := by
  by_contra never
  have idle : .step 0 ∉ history := by
    intro inside
    obtain ⟨between, rest, split, first⟩ := List.eq_append_cons_of_mem inside
    exact never ⟨between, rest, split, first⟩
  exact (stands.run_aside idle).1.not_ended rfl ended

theorem check (stands : r.Stands reason late .reporting true) :
    (r.after (.step 0)).Stands reason late
        (if r.teardown.isEstablished then
          .marking (Clock.timer r.now r.teardown.handOff) else .reporting) false ∧
      r.posted (.step 0) = [] := by
  have next : r.after (.step 0) = r.check := by simp [Race.after, step, stands.undecided]
  rw [posted, next]
  refine ⟨⟨stands.fired, ?_, rfl⟩, entered_of_same rfl rfl⟩
  simp [Race.check, Teardown.setPhase, stands.calls]

theorem after_step (stands : r.Stands reason late phase false) :
    r.after (.step 0) =
      { r with teardown := (r.teardown.advance 0 r.now).getD r.teardown } := by
  simp [Race.after, step, stands.undecided]

end Stands

end Race

end PeerWire.Teardown

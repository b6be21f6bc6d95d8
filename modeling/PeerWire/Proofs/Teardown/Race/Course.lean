import PeerWire.Proofs.Teardown.Race.Stages

/-!
The whole course of a teardown that is called for, as often as anybody likes, where all callers
wait for their calls to return. `Course` cuts what happens at the two halves of the first call,
and `Course.ComesTo` says what that comes to: who acts, what is put into the two mailboxes, in
which order, and for which reason the marker is not among it.
-/

namespace PeerWire.Teardown.Race

/-- The history up to the first of the calls. -/
theorem exists_call {history : List Event} {reason : Ending} {others : List Ending}
    (called : history.filterMap Event.called? = reason :: others) :
    ∃ before later, history = before ++ .call reason :: later ∧
      (∀ event ∈ before, event.called? = none) ∧ later.filterMap Event.called? = others := by
  obtain ⟨before, event, later, rfl, quiet, own, late⟩ := List.filterMap_eq_cons_iff.mp called
  cases event with
  | call reason' =>
      cases own
      exact ⟨before, later, rfl, quiet, late⟩
  | _ => contradiction

/-- The events of a teardown that is called for. -/
structure Course where
  /-- What happens before anybody calls for the end. -/
  before : List Event
  /-- The reason of the first call. -/
  reason : Ending
  /-- What happens between the two halves of the first call. -/
  between : List Event
  /-- What happens after the first call has looked whether the connection is established. -/
  rest : List Event

namespace Course

variable (c : Course)

/-- What happens until the first call looks whether the connection is established. -/
def untilCheck : List Event := c.before ++ .call c.reason :: c.between

/-- All that happens. -/
def history : List Event := c.untilCheck ++ .step 0 :: c.rest

/-- The reasons of all calls but the first. -/
def late : List Ending := (c.between ++ c.rest).filterMap Event.called?

variable (first : Race)

/-- The teardown when the first call has looked. -/
def checked : Race := first.run (c.untilCheck ++ [.step 0])

/-- The moment at which the first call gives its marker up. -/
def deadline : Nat := Clock.timer (first.run c.untilCheck).now first.teardown.handOff

/-- The connection was established when the first call looked, and its attempt to hand the
marker over, which begins then, ends in this way after so many events. -/
def Tries (waited : List Event) (how : HandOver) : Prop :=
  .establish ∈ c.untilCheck ∧
    ∃ later, c.rest = waited ++ .step 0 :: later ∧
      Attempt (c.deadline first) (c.checked first) waited how

/-- What the events come to. The marker gets into the deliveries if it is `marked`, and the
report into the exits if it is `heard`. -/
structure ComesTo (marked heard : Bool) : Prop where
  /-- The first call is the only one that returns `true`. -/
  calls : (first.run c.history).teardown.calls = { reason := c.reason, phase := .returned true } ::
    c.late.map fun reason => { reason, phase := .returned false }
  earliest : ∀ event ∈ c.before, event.called? = none
  halved : .step 0 ∉ c.between
  /-- The teardown has fired from the first call on, and never before. -/
  fired : ∀ past later, c.history = past ++ later →
    ((first.run past).teardown.hasFired = true ↔ c.before.length < past.length)
  /-- The first call puts its marker into the deliveries, if at all, then its report into the
  exits, and that is all that any call puts anywhere. -/
  posted : first.postings c.history =
    marker first.teardown.addr marked ++ report first.teardown.addr c.reason heard
  listening : (first.run c.history).teardown.exits.isOpen = true → heard = true
  marked_iff : marked = true ↔ ∃ waited, c.Tries first waited .accepted
  /-- A marker that does not get into the deliveries is given up. -/
  given_up : .establish ∈ c.untilCheck → marked = false →
    ∃ waited how, how ≠ .accepted ∧ c.Tries first waited how
  /-- The deadline ends the attempt only if the open deliveries have had no room for the marker
  at any moment since the call first looked for it. -/
  patient : ∀ waited, c.Tries first waited .expired → ∀ past later, waited = past ++ later →
    .step 0 ∈ past → ¬ ((c.checked first).run past).teardown.deliveries.HasPlace (.caller 0)
  /-- Where time does not pass the deadline while the call waits, the attempt is over by then. -/
  timely : first.Punctual c.history → ∀ waited how, c.Tries first waited how →
    ((c.checked first).run waited).now ≤ c.deadline first

variable {c first}

theorem run_history : first.run c.history = (c.checked first).run c.rest := by
  simp [history, checked]

theorem postings_history : first.postings c.history =
    first.postings c.untilCheck ++ (first.run c.untilCheck).posted (.step 0) ++
      (c.checked first).postings c.rest := by
  simp [history, checked, postings]

theorem history_eq :
    c.history = c.before ++ .call c.reason :: (c.between ++ .step 0 :: c.rest) := by
  simp [history, untilCheck]

/-- Until it looks, the first call has fired the teardown, and nothing else. -/
theorem stands (untouched : first.Untouched) (earliest : ∀ event ∈ c.before, event.called? = none)
    (halved : .step 0 ∉ c.between) :
    (first.run c.untilCheck).Stands c.reason (c.between.filterMap Event.called?) .reporting true ∧
      first.postings c.untilCheck = [] := by
  obtain ⟨still, silent⟩ := untouched.run earliest
  obtain ⟨called, unposted⟩ := still.call c.reason
  obtain ⟨waiting, idle⟩ := called.run_aside halved
  rw [untilCheck, run_append, run_cons]
  refine ⟨waiting, ?_⟩
  rw [postings_append, postings, silent, unposted, idle]
  rfl

section Decided

variable {late : List Ending}
  (stands : (first.run c.untilCheck).Stands c.reason late .reporting true)
include stands

/-- The first call attempts to hand its marker over if the connection is established. -/
theorem marking (established : .establish ∈ c.untilCheck) :
    (c.checked first).Stands c.reason late (.marking (c.deadline first)) false := by
  have next := stands.check.1
  rw [if_pos ((first.established_run _).mpr (.inr established)), handOff_run] at next
  rw [checked, run_append]
  exact next

/-- The first call has nothing to report but the end if the connection is not established. -/
theorem reporting (fresh : first.teardown.isEstablished = false)
    (unestablished : .establish ∉ c.untilCheck) :
    (c.checked first).Stands c.reason late .reporting false := by
  have next := stands.check.1
  have never : ¬ (first.run c.untilCheck).teardown.isEstablished = true := by
    rw [established_run, fresh]
    simp [unestablished]
  rw [if_neg never] at next
  rw [checked, run_append]
  exact next

theorem patient_of_stands {waited : List Event} (tries : c.Tries first waited .expired)
    {past later : List Event} (split : waited = past ++ later) (looked : .step 0 ∈ past) :
    ¬ ((c.checked first).run past).teardown.deliveries.HasPlace (.caller 0) := by
  obtain ⟨established, _, -, attempt⟩ := tries
  subst split
  obtain ⟨_, still, goes, line⟩ := attempt.split past (marking stands established)
  intro place
  exact goes.ne_expired still (line (.inl looked)) place rfl

theorem timely_of_stands (punctual : first.Punctual c.history) {waited : List Event}
    {how : HandOver} (tries : c.Tries first waited how) :
    ((c.checked first).run waited).now ≤ c.deadline first := by
  obtain ⟨established, later, split, attempt⟩ := tries
  have whole : c.history = c.untilCheck ++ [.step 0] ++ (waited ++ .step 0 :: later) := by
    simp [history, split]
  rw [whole] at punctual
  refine attempt.now_le (marking stands established) ?_ (punctual.run _).of_append
  have same : (c.checked first).now = (first.run c.untilCheck).now := by
    rw [checked, run_append]
    rcases (first.run c.untilCheck).now_after (.step 0) with same | ⟨ms, own, -⟩
    · exact same
    · contradiction
  rw [same]
  exact Clock.le_timer ..

/-- Once it has looked, the first call does what it owes, and returns. -/
theorem exists_outcome (fresh : first.teardown.isEstablished = false)
    (ended : ((c.checked first).run c.rest).teardown.hasEnded 0 = true) :
    ∃ marked heard,
      ((c.checked first).run c.rest).Stands c.reason (late ++ c.rest.filterMap Event.called?)
          (.returned true) false ∧
        (c.checked first).postings c.rest =
          marker first.teardown.addr marked ++ report first.teardown.addr c.reason heard ∧
        (((c.checked first).run c.rest).teardown.exits.isOpen = true → heard = true) ∧
        (marked = true ↔ ∃ waited, c.Tries first waited .accepted) ∧
        (.establish ∈ c.untilCheck → marked = false →
          ∃ waited how, how ≠ .accepted ∧ c.Tries first waited how) := by
  have ours : (c.checked first).teardown.addr = first.teardown.addr := first.addr_run _
  by_cases established : .establish ∈ c.untilCheck
  · obtain ⟨how, waited, later, split, attempt, done, put⟩ :=
      (marking stands established).exists_attempt ended
    have whole : c.rest = waited ++ [.step 0] ++ later := by simp [split]
    rw [whole, run_append] at ended
    obtain ⟨heard, returned, told, listening⟩ := done.exists_return ended
    have tries : c.Tries first waited how := ⟨established, later, split, attempt⟩
    rw [← run_append, ← whole] at returned listening
    refine ⟨how = .accepted, heard, ?_, ?_, listening, ?_, ?_⟩
    · rw [split, called_around, ← List.append_assoc, ← split]
      exact returned
    · rw [whole, postings_append, put, told, addr_run, ours]
    · rw [decide_eq_true_iff]
      constructor
      · rintro rfl
        exact ⟨waited, tries⟩
      · rintro ⟨waited', -, later', split', attempt'⟩
        exact (attempt.unique attempt' (split ▸ split')).2
    · intro _ unmarked
      exact ⟨waited, how, of_decide_eq_false unmarked, tries⟩
  · obtain ⟨heard, returned, told, listening⟩ :=
      (reporting stands fresh established).exists_return ended
    refine ⟨false, heard, returned, ?_, listening, ?_, ?_⟩
    · rw [told, ours]
      rfl
    · refine ⟨nofun, ?_⟩
      rintro ⟨waited, inside, -⟩
      exact absurd inside established
    · exact fun inside => absurd inside established

end Decided

/-- Whatever happens, the first call acts, and nobody else does. -/
theorem exists_comesTo (untouched : first.Untouched)
    (fresh : first.teardown.isEstablished = false)
    (earliest : ∀ event ∈ c.before, event.called? = none) (halved : .step 0 ∉ c.between)
    (ended : (first.run c.history).teardown.hasEnded 0 = true) :
    ∃ marked heard, c.ComesTo first marked heard := by
  obtain ⟨waits, quiescent⟩ := stands untouched earliest halved
  rw [run_history] at ended
  obtain ⟨marked, heard, returned, put, listening, marked_iff, given_up⟩ :=
    exists_outcome waits fresh ended
  rw [← run_history] at returned listening
  refine ⟨marked, heard, ?_⟩
  constructor
  case calls =>
    rw [late, List.filterMap_append]
    exact returned.calls
  case earliest => exact earliest
  case halved => exact halved
  case fired =>
    intro past later split
    exact untouched.fired_iff earliest (history_eq.symm.trans split)
  case posted =>
    rw [postings_history, quiescent, waits.check.2, put]
    rfl
  case listening => exact listening
  case marked_iff => exact marked_iff
  case given_up => exact given_up
  case patient =>
    intro waited tries past later split looked
    exact patient_of_stands waits tries split looked
  case timely =>
    intro punctual waited how tries
    exact timely_of_stands waits punctual tries

end Course

/-- However many calls there are, and however they and the establishment of the connection fall
among one another and among what others do to both mailboxes: where all calls are waited for,
the first of them tears the connection down, with its own reason, and the others do nothing. -/
theorem torn_down_once (addr : String) (handOff exits deliveries : Nat) (history : List Event)
    {reason : Ending} {others : List Ending}
    (called : history.filterMap Event.called? = reason :: others)
    (awaited : ∀ number < (history.filterMap Event.called?).length,
      ((start addr handOff exits deliveries).run history).teardown.hasEnded number = true) :
    ∃ (c : Course) (marked heard : Bool),
      c.history = history ∧ c.reason = reason ∧ c.late = others ∧
        c.ComesTo (start addr handOff exits deliveries) marked heard := by
  obtain ⟨before, tail, rfl, earliest, late⟩ := exists_call called
  have untouched := Untouched.start addr handOff exits deliveries
  have ended := awaited 0 (by rw [called]; exact Nat.zero_lt_succ _)
  have fired := ((untouched.run earliest).1.call reason).1
  rw [run_append, run_cons] at ended
  obtain ⟨between, rest, rfl, halved⟩ := fired.exists_check ended
  let c : Course := { before, reason, between, rest }
  have whole : c.history = before ++ .call reason :: (between ++ .step 0 :: rest) :=
    Course.history_eq
  rw [← run_cons, ← run_append, ← whole] at ended
  obtain ⟨marked, heard, comesTo⟩ := c.exists_comesTo untouched rfl earliest halved ended
  refine ⟨c, marked, heard, whole, rfl, ?_, comesTo⟩
  rw [← late, Course.late, called_around, List.filterMap_append]

/-- Two calls race, and the connection is established between the two halves of the first. The
deliveries are full then; there is room again before its deadline. -/
theorem torn_down_once_in_time :
    let history : List Event := [.deliveries (.put none (.disconnected "10.0.0.8:6881")),
      .call .cancelled, .establish, .call .streamClosed, .step 1, .step 0, .step 0, .wait 99,
      .deliveries (.take 1), .step 0, .step 0]
    (history.filterMap Event.called? = [.cancelled, .streamClosed] ∧
        ∀ number < (history.filterMap Event.called?).length,
          ((start "10.0.0.7:6881" 100 4 1).run history).teardown.hasEnded number = true) ∧
      ∃ (c : Course) (marked heard : Bool),
        c.history = history ∧ c.reason = .cancelled ∧ c.late = [.streamClosed] ∧
          c.ComesTo (start "10.0.0.7:6881" 100 4 1) marked heard :=
  ⟨by decide, torn_down_once _ _ _ _ _ (by decide) (by decide)⟩

end PeerWire.Teardown.Race

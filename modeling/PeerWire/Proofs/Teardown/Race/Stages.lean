import PeerWire.Proofs.Teardown.Race

/-!
The stages of the first call after it has looked whether the connection is established. It may
have a marker to hand over, for which it looks for room with each of its steps until its
deadline has come: `Attempt` follows it through that. Once it stands in line it misses no room
that comes free in time. Then it reports the end, and for that it waits as long as it takes.
-/

namespace PeerWire

/-- A timer does not go off before it is set. -/
theorem Clock.le_timer (now wait : Nat) : now ≤ timer now wait := by
  unfold timer after?
  split
  · exact Nat.le_add_right _ _
  · exact Nat.le_add_right _ _

namespace Teardown.Race

/-! ### The marker -/

/-- The deliveries are open, without room for the marker. -/
def IsCrowded (r : Race) : Prop :=
  r.teardown.deliveries.isOpen = true ∧ ¬ r.teardown.deliveries.HasPlace (.caller 0)

/-- What the first call finds when it looks for room the last time. -/
inductive Ends (r : Race) (deadline : Nat) : HandOver → Prop where
  | accepted (place : r.teardown.deliveries.HasPlace (.caller 0)) : Ends r deadline .accepted
  | closed (shut : r.teardown.deliveries.isOpen = false) : Ends r deadline .closed
  | expired (crowded : r.IsCrowded) (due : deadline ≤ r.now) : Ends r deadline .expired

theorem Ends.unique {r : Race} {deadline : Nat} {how how' : HandOver} (found : r.Ends deadline how)
    (found' : r.Ends deadline how') : how = how' := by
  cases found <;> cases found' <;> simp_all [IsCrowded, Mailbox.HasPlace]

/-- A call that finds no room in time looks again. -/
theorem not_ends {r : Race} {deadline : Nat} (crowded : r.IsCrowded) (early : r.now < deadline)
    {how : HandOver} : ¬ r.Ends deadline how := by
  rintro (place | shut | ⟨-, due⟩)
  · exact crowded.2 place
  · rw [crowded.1] at shut
    contradiction
  · exact absurd early (Nat.not_lt.mpr due)

/-- What has been put into the deliveries when the attempt has ended. -/
def marker (addr : String) (marked : Bool) : List Posting :=
  if marked then [.delivery 0 (.disconnected addr)] else []

/-- The attempt of the first call to hand its marker over, up to the step that ends it. With
each of its steps it looks for room, until there is room, or nobody listens any more, or its
deadline has come. -/
inductive Attempt (deadline : Nat) : Race → List Event → HandOver → Prop where
  | ends {r : Race} {how : HandOver} (found : r.Ends deadline how) : Attempt deadline r [] how
  | looked {r : Race} {waited : List Event} {how : HandOver} (crowded : r.IsCrowded)
      (early : r.now < deadline) (rest : Attempt deadline (r.after (.step 0)) waited how) :
      Attempt deadline r (.step 0 :: waited) how
  | aside {r : Race} {event : Event} {waited : List Event} {how : HandOver}
      (other : event ≠ .step 0) (rest : Attempt deadline (r.after event) waited how) :
      Attempt deadline r (event :: waited) how

namespace Stands

variable {r : Race} {reason : Ending} {late : List Ending} {deadline : Nat}

/-- One look of the first call for room. -/
inductive Look (r : Race) (reason : Ending) (late : List Ending) (deadline : Nat) : Prop where
  | ends {how : HandOver} (found : r.Ends deadline how)
      (next : (r.after (.step 0)).Stands reason late .reporting false)
      (posted : r.posted (.step 0) = marker r.teardown.addr (how = .accepted))
  | waits (crowded : r.IsCrowded) (early : r.now < deadline)
      (next : (r.after (.step 0)).Stands reason late (.marking deadline) false)
      (posted : r.posted (.step 0) = [])
      (line : .caller 0 ∈ (r.after (.step 0)).teardown.deliveries.line)

/-- There is room for the marker, or nobody listens: the attempt is over. -/
theorem look_settled (stands : r.Stands reason late (.marking deadline) false)
    (settled :
      (r.teardown.deliveries.send (.caller 0) (.disconnected r.teardown.addr)).1 ≠ .full) :
    (r.after (.step 0)).Stands reason late .reporting false ∧
      r.posted (.step 0) = marker r.teardown.addr
        ((r.teardown.deliveries.send (.caller 0) (.disconnected r.teardown.addr)).1 =
          .accepted) := by
  have entered := r.teardown.deliveries.gained_send (.caller 0) (.disconnected r.teardown.addr)
  rw [posted, stands.after_step, advance_of_marked stands.first settled, Option.getD_some]
  refine ⟨stands.setPhase (by rfl) (by rfl) _, ?_⟩
  simp only [Race.entered, Teardown.setPhase, entered, Mailbox.gained_self, marker,
    decide_eq_true_eq, List.map_nil, List.append_nil]
  split <;> rfl

theorem look (stands : r.Stands reason late (.marking deadline) false) :
    Look r reason late deadline := by
  cases receipt :
      (r.teardown.deliveries.send (.caller 0) (.disconnected r.teardown.addr)).1 with
  | accepted =>
      obtain ⟨next, posted⟩ := stands.look_settled (by rw [receipt]; exact nofun)
      rw [receipt] at posted
      exact .ends (.accepted ((Mailbox.send_eq_accepted_iff ..).mp receipt)) next posted
  | closed =>
      obtain ⟨next, posted⟩ := stands.look_settled (by rw [receipt]; exact nofun)
      rw [receipt] at posted
      exact .ends (.closed ((Mailbox.send_eq_closed_iff ..).mp receipt)) next posted
  | full =>
      have crowded : r.IsCrowded := (Mailbox.send_eq_full_iff ..).mp receipt
      have next := stands.after_step
      by_cases due : deadline ≤ r.now
      · rw [advance_of_due stands.first receipt due, Option.getD_some] at next
        refine .ends (.expired crowded due) ?_ ?_
        · rw [next]
          exact stands.setPhase (by rfl) (by rfl) _
        · rw [posted, next]
          simp [Race.entered, Teardown.setPhase, marker, Mailbox.send_of_full receipt,
            Mailbox.gained]
      · have early := Nat.not_le.mp due
        rw [advance_of_early stands.first receipt early] at next
        refine .waits crowded early ?_ ?_ ?_
        · rw [next]
          exact ⟨stands.fired, stands.calls, stands.undecided⟩
        · rw [posted, next]
          simp [Race.entered, Mailbox.send_of_full receipt, Mailbox.gained]
        · rw [next, Mailbox.send_of_full receipt]
          exact Mailbox.mem_line_join ..

/-- The attempt ends, since the call is waited for. -/
theorem exists_attempt (stands : r.Stands reason late (.marking deadline) false)
    {history : List Event} (ended : (r.run history).teardown.hasEnded 0 = true) :
    ∃ how waited later, history = waited ++ .step 0 :: later ∧ Attempt deadline r waited how ∧
      (r.run (waited ++ [.step 0])).Stands reason (late ++ waited.filterMap Event.called?)
        .reporting false ∧
      r.postings (waited ++ [.step 0]) = marker r.teardown.addr (how = .accepted) := by
  induction history generalizing r late with
  | nil => exact absurd ended (stands.not_ended rfl)
  | cons event rest ih =>
      by_cases own : event = .step 0
      · subst own
        cases stands.look with
        | @ends how found next posted =>
            refine ⟨how, [], rest, rfl, .ends found, ?_, ?_⟩
            · simpa using next
            · simpa [postings] using posted
        | waits crowded early next posted line =>
            obtain ⟨how, waited, later, split, attempt, done, put⟩ := ih next ended
            refine ⟨how, .step 0 :: waited, later, by rw [split]; rfl,
              .looked crowded early attempt, done, ?_⟩
            rw [List.cons_append, postings, posted, put, (r.kept_after _).addr]
            rfl
      · obtain ⟨how, waited, later, split, attempt, done, put⟩ := ih (stands.aside own) ended
        refine ⟨how, event :: waited, later, by rw [split]; rfl, .aside own attempt, ?_, ?_⟩
        · rw [called_cons, ← List.append_assoc]
          exact done
        · rw [List.cons_append, postings, stands.posted_aside own, put, (r.kept_after _).addr]
          rfl

end Stands

namespace Attempt

variable {r : Race} {deadline : Nat} {waited : List Event} {how : HandOver}

/-- There is only one way to go through a history. -/
theorem unique (attempt : Attempt deadline r waited how) {later : List Event} :
    ∀ {waited' later' : List Event} {how' : HandOver}, Attempt deadline r waited' how' →
      waited ++ .step 0 :: later = waited' ++ .step 0 :: later' →
        waited = waited' ∧ how = how' := by
  induction attempt with
  | ends found =>
      intro waited' later' how' again same
      cases again with
      | ends found' => exact ⟨rfl, found.unique found'⟩
      | looked crowded early => exact absurd found (not_ends crowded early)
      | aside other => exact absurd (List.cons.inj same).1.symm other
  | looked crowded early rest ih =>
      intro waited' later' how' again same
      cases again with
      | ends found' => exact absurd found' (not_ends crowded early)
      | looked crowded' early' rest' =>
          obtain ⟨rfl, rfl⟩ := ih rest' (List.cons.inj same).2
          exact ⟨rfl, rfl⟩
      | aside other => exact absurd (List.cons.inj same).1.symm other
  | aside other rest ih =>
      intro waited' later' how' again same
      cases again with
      | ends found' => exact absurd (List.cons.inj same).1 other
      | looked crowded' early' rest' => exact absurd (List.cons.inj same).1 other
      | aside other' rest' =>
          obtain ⟨rfl, tails⟩ := List.cons.inj same
          obtain ⟨rfl, rfl⟩ := ih rest' tails
          exact ⟨rfl, rfl⟩

/-- An attempt goes on behind any of its events. Who has looked once stands in line. -/
theorem split (past : List Event) {later : List Event} {reason : Ending} {late : List Ending}
    (attempt : Attempt deadline r (past ++ later) how)
    (stands : r.Stands reason late (.marking deadline) false) :
    ∃ late', (r.run past).Stands reason late' (.marking deadline) false ∧
      Attempt deadline (r.run past) later how ∧
      (.step 0 ∈ past ∨ .caller 0 ∈ r.teardown.deliveries.line →
        .caller 0 ∈ (r.run past).teardown.deliveries.line) := by
  induction past generalizing r late with
  | nil => exact ⟨late, stands, attempt, fun waits => waits.resolve_left List.not_mem_nil⟩
  | cons event past ih =>
      cases attempt with
      | looked crowded early rest =>
          cases stands.look with
          | ends found => exact absurd found (not_ends crowded early)
          | waits crowded early next posted line =>
              obtain ⟨late', still, goes, stays⟩ := ih rest next
              exact ⟨late', still, goes, fun _ => stays (.inr line)⟩
      | aside other rest =>
          obtain ⟨late', still, goes, stays⟩ := ih rest (stands.aside other)
          refine ⟨late', still, goes, ?_⟩
          rintro (looked | waits)
          · exact stays (.inl (List.mem_of_ne_of_mem other.symm looked))
          · refine stays (.inr ?_)
            rcases stands.deliveries_aside other with same | ⟨stir, moved⟩
            · rwa [same]
            · rw [moved]
              exact Mailbox.mem_line_stirred rfl waits

theorem eq_closed (attempt : Attempt deadline r waited how)
    (shut : r.teardown.deliveries.isOpen = false) : how = .closed := by
  induction attempt with
  | ends found =>
      cases found with
      | accepted place => rw [place.1] at shut; contradiction
      | closed => rfl
      | expired crowded => rw [crowded.1] at shut; contradiction
  | looked crowded => rw [crowded.1] at shut; contradiction
  | aside other rest ih => exact ih ((kept_after _ _).shut shut)

/-- Room that is there for a call in line is not missed, unless the receiver goes away. -/
theorem ne_expired (attempt : Attempt deadline r waited how) {reason : Ending}
    {late : List Ending} (stands : r.Stands reason late (.marking deadline) false)
    (waits : .caller 0 ∈ r.teardown.deliveries.line)
    (place : r.teardown.deliveries.HasPlace (.caller 0)) : how ≠ .expired := by
  induction attempt generalizing late with
  | ends found =>
      rintro rfl
      cases found with
      | expired crowded => exact crowded.2 place
  | looked crowded => exact absurd place crowded.2
  | aside other rest ih =>
      rcases stands.deliveries_aside other with same | ⟨stir, moved⟩
      · exact ih (stands.aside other) (same ▸ waits) (same ▸ place)
      · rcases Mailbox.hasPlace_stirred stir rfl waits place with still | shut
        · refine ih (stands.aside other) ?_ (moved ▸ still)
          rw [moved]
          exact Mailbox.mem_line_stirred rfl waits
        · rw [rest.eq_closed (moved ▸ shut)]
          exact nofun

end Attempt

/-! ### A clock that stops for the first call -/

/-- While the first call waits for room, time does not pass its deadline. -/
def Punctual (r : Race) (history : List Event) : Prop :=
  ∀ (past : List Event) (ms : Nat) (later : List Event) (deadline : Nat),
    history = past ++ .wait ms :: later →
      (r.run past).teardown.deadline? 0 = some deadline → (r.run past).now + ms ≤ deadline

section Clocks

variable {r : Race}

theorem Punctual.of_append {history later : List Event} (punctual : r.Punctual (history ++ later)) :
    r.Punctual history := by
  intro past ms rest deadline split
  exact punctual past ms (rest ++ later) deadline (by rw [split]; simp)

theorem Punctual.run (past : List Event) {history : List Event}
    (punctual : r.Punctual (past ++ history)) : (r.run past).Punctual history := by
  intro more ms rest deadline split waits
  rw [← run_append] at waits ⊢
  exact punctual (past ++ more) ms rest deadline (by rw [split, List.append_assoc]) waits

/-- Only waiting takes time. -/
theorem now_after (r : Race) (event : Event) :
    (r.after event).now = r.now ∨ ∃ ms, event = .wait ms ∧ (r.after event).now = r.now + ms := by
  cases event with
  | call reason =>
      left
      change (r.call reason).now = r.now
      unfold call
      split <;> rfl
  | step number =>
      left
      change (r.step number).now = r.now
      unfold step
      split <;> rfl
  | wait ms => exact .inr ⟨ms, rfl, rfl⟩
  | _ => exact .inl rfl

/-- Where time does not pass the deadline, the attempt is over by then. -/
theorem Attempt.now_le {deadline : Nat} {waited : List Event} {how : HandOver} {reason : Ending}
    {late : List Ending} (attempt : Attempt deadline r waited how)
    (stands : r.Stands reason late (.marking deadline) false) (early : r.now ≤ deadline)
    (punctual : r.Punctual waited) : (r.run waited).now ≤ deadline := by
  induction waited generalizing r late with
  | nil => exact early
  | cons event rest ih =>
      obtain ⟨late', still, goes, -⟩ := Attempt.split [event] attempt stands
      refine ih goes still ?_ (Punctual.run [event] punctual)
      rcases r.now_after event with same | ⟨ms, rfl, passed⟩
      · rwa [same]
      · have limit : r.teardown.deadline? 0 = some deadline := by
          simp [Teardown.deadline?, stands.first]
        rw [passed]
        exact punctual [] ms rest deadline rfl limit

end Clocks

/-! ### The report -/

/-- What has been put into the exits when the first call has returned. -/
def report (addr : String) (reason : Ending) (heard : Bool) : List Posting :=
  if heard then [.report 0 { addr, reason }] else []

namespace Stands

variable {r : Race} {reason : Ending} {late : List Ending}

/-- One step of the first call on its way to report. -/
inductive Telling (r : Race) (reason : Ending) (late : List Ending) : Prop where
  | ends {heard : Bool} (next : (r.after (.step 0)).Stands reason late (.returned true) false)
      (posted : r.posted (.step 0) = report r.teardown.addr reason heard)
      (deaf : heard = false → r.teardown.exits.isOpen = false)
  | waits (next : (r.after (.step 0)).Stands reason late .reporting false)
      (posted : r.posted (.step 0) = [])

/-- There is room for the report, or nobody listens: the call returns. -/
theorem telling_settled (stands : r.Stands reason late .reporting false)
    (settled : (r.teardown.exits.send (.caller 0) { addr := r.teardown.addr, reason }).1 ≠ .full) :
    (r.after (.step 0)).Stands reason late (.returned true) false ∧
      r.posted (.step 0) = report r.teardown.addr reason
        ((r.teardown.exits.send (.caller 0) { addr := r.teardown.addr, reason }).1 =
          .accepted) := by
  have entered := r.teardown.exits.gained_send (.caller 0) { addr := r.teardown.addr, reason }
  rw [posted, stands.after_step, advance_of_reported stands.first settled, Option.getD_some]
  refine ⟨stands.setPhase (by rfl) (by rfl) _, ?_⟩
  simp only [Race.entered, Teardown.setPhase, entered, Mailbox.gained_self, report,
    decide_eq_true_eq, List.map_nil, List.nil_append]
  split <;> rfl

theorem telling (stands : r.Stands reason late .reporting false) : Telling r reason late := by
  cases receipt :
      (r.teardown.exits.send (.caller 0) { addr := r.teardown.addr, reason }).1 with
  | accepted =>
      obtain ⟨next, posted⟩ := stands.telling_settled (by rw [receipt]; exact nofun)
      rw [receipt] at posted
      exact .ends next posted nofun
  | closed =>
      obtain ⟨next, posted⟩ := stands.telling_settled (by rw [receipt]; exact nofun)
      rw [receipt] at posted
      exact .ends next posted fun _ => (Mailbox.send_eq_closed_iff ..).mp receipt
  | full =>
      have next := stands.after_step
      rw [advance_of_unheard stands.first receipt] at next
      refine .waits ?_ ?_
      · rw [next]
        exact ⟨stands.fired, stands.calls, stands.undecided⟩
      · rw [posted, next]
        simp [Race.entered, Mailbox.send_of_full receipt, Mailbox.gained]

/-- The report is sent, since the call is waited for. -/
theorem exists_report (stands : r.Stands reason late .reporting false) {history : List Event}
    (ended : (r.run history).teardown.hasEnded 0 = true) :
    ∃ heard waited later, history = waited ++ .step 0 :: later ∧
      (r.run (waited ++ [.step 0])).Stands reason (late ++ waited.filterMap Event.called?)
        (.returned true) false ∧
      r.postings (waited ++ [.step 0]) = report r.teardown.addr reason heard ∧
      (heard = false → (r.run (waited ++ [.step 0])).teardown.exits.isOpen = false) := by
  induction history generalizing r late with
  | nil => exact absurd ended (stands.not_ended rfl)
  | cons event rest ih =>
      by_cases own : event = .step 0
      · subst own
        cases stands.telling with
        | @ends heard next posted deaf =>
            refine ⟨heard, [], rest, rfl, ?_, ?_, ?_⟩
            · simpa using next
            · simpa [postings] using posted
            · exact fun turned => (r.kept_after (.step 0)).deaf (deaf turned)
        | waits next posted =>
            obtain ⟨heard, waited, later, split, done, put, deaf⟩ := ih next ended
            refine ⟨heard, .step 0 :: waited, later, by rw [split]; rfl, done, ?_, deaf⟩
            rw [List.cons_append, postings, posted, put, (r.kept_after _).addr]
            rfl
      · obtain ⟨heard, waited, later, split, done, put, deaf⟩ := ih (stands.aside own) ended
        refine ⟨heard, event :: waited, later, by rw [split]; rfl, ?_, ?_, deaf⟩
        · rw [called_cons, ← List.append_assoc]
          exact done
        · rw [List.cons_append, postings, stands.posted_aside own, put, (r.kept_after _).addr]
          rfl

/-- A call that has returned does nothing more. -/
theorem run_returned (stands : r.Stands reason late (.returned true) false)
    (history : List Event) :
    (r.run history).Stands reason (late ++ history.filterMap Event.called?) (.returned true)
        false ∧
      r.postings history = [] := by
  induction history generalizing r late with
  | nil => exact ⟨by rwa [List.filterMap_nil, List.append_nil], rfl⟩
  | cons event rest ih =>
      by_cases own : event = .step 0
      · subst own
        have same : r.after (.step 0) = r := by
          rw [stands.after_step, advance_of_returned stands.first]
          rfl
        have nothing : r.posted (.step 0) = [] := by
          rw [posted, same]
          exact entered_of_same rfl rfl
        rw [postings, nothing, run_cons, same]
        exact ih stands
      · rw [postings, stands.posted_aside own, called_cons, ← List.append_assoc]
        exact ih (stands.aside own)

/-- A call that has nothing but its report left sends it, and returns. -/
theorem exists_return (stands : r.Stands reason late .reporting false) {history : List Event}
    (ended : (r.run history).teardown.hasEnded 0 = true) :
    ∃ heard, (r.run history).Stands reason (late ++ history.filterMap Event.called?)
        (.returned true) false ∧
      r.postings history = report r.teardown.addr reason heard ∧
      ((r.run history).teardown.exits.isOpen = true → heard = true) := by
  obtain ⟨heard, waited, later, rfl, done, put, deaf⟩ := stands.exists_report ended
  obtain ⟨returned, nothing⟩ := done.run_returned later
  have whole : waited ++ .step 0 :: later = waited ++ [.step 0] ++ later := by simp
  refine ⟨heard, ?_, ?_, ?_⟩
  · rw [called_around, whole, run_append, ← List.append_assoc]
    exact returned
  · rw [whole, postings_append, put, nothing, List.append_nil]
  · intro listening
    by_contra turned
    have lost := deaf_run later (deaf (eq_false_of_ne_true turned))
    rw [whole, run_append, lost] at listening
    contradiction

end Stands

end Teardown.Race

end PeerWire

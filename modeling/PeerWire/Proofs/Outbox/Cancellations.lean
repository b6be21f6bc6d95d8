import PeerWire.Proofs.Outbox.OneList

/-!
Which block a cancellation strikes. Cancellations are taken up in the order of their
acceptance, so the `n`-th that is accepted is the `n`-th that is taken up, and
`World.strikes` tells for each of them the place of the block that it struck. A
cancellation that was taken up never strikes a block that is accepted afterwards. One that
still waits can: the task takes in all that has arrived before it looks for a match. No
message is handed over in between, so it is settled at the moment of the block's
acceptance whether it will be struck: it is when as many blocks of its name are queued as
there are waiting cancellations of this name that go first.
-/

namespace PeerWire

/-- Whether the message waits and the cancellation names it. -/
def Entry.isHitBy (ref : BlockRef) (entry : Entry) : Bool :=
  decide (entry.fate = .queued) && Outbox.isRetractedBy ref entry.message

namespace Ledger

/-- The place of the block that a cancellation strikes. -/
def victim? (ledger : Ledger) (ref : BlockRef) : Option Nat :=
  ledger.findIdx? (Entry.isHitBy ref)

/-- What every cancellation strikes that is taken up in the course of the deeds. -/
def strikes (ledger : Ledger) : List Outbox.Deed → List (Option Nat)
  | [] => []
  | .retracted ref :: later => ledger.victim? ref :: strikes (ledger.strike ref) later
  | deed :: later => strikes (ledger.record deed) later

/-- The message in this place was retracted. -/
def Lost (ledger : Ledger) (place : Nat) : Prop :=
  ∃ entry, ledger[place]? = some entry ∧ entry.fate = .retracted

/-! ### One cancellation -/

section Strike

variable {ledger : Ledger} {ref ref' : BlockRef} {place : Nat} {entry : Entry} {message : Message}

theorem Entry.isHitBy_iff : entry.isHitBy ref = true ↔
    entry.fate = .queued ∧ Outbox.isRetractedBy ref entry.message = true := by
  rw [Entry.isHitBy, Bool.and_eq_true, decide_eq_true_eq]

/-- A cancellation strikes nothing, or one block that it hits and only that. -/
theorem strike_cases (ledger : Ledger) (ref : BlockRef) :
    (ledger.victim? ref = none ∧ ledger.strike ref = ledger) ∨
    ∃ place entry, ledger.victim? ref = some place ∧ ledger[place]? = some entry ∧
      entry.isHitBy ref = true ∧
      ledger.strike ref = ledger.set place { entry with fate := .retracted } := by
  induction ledger with
  | nil => exact .inl ⟨rfl, rfl⟩
  | cons first rest ih =>
      unfold victim? strike settle
      simp only [← Entry.isHitBy_iff, List.findIdx?_cons]
      by_cases hit : first.isHitBy ref = true
      · rw [if_pos hit, if_pos hit]
        exact .inr ⟨0, first, rfl, rfl, hit, rfl⟩
      · rw [if_neg hit, if_neg hit]
        rcases ih with ⟨none, same⟩ | ⟨place, entry, found, here, hit', struck⟩
        · left
          exact ⟨Option.map_eq_none_iff.mpr none, congrArg (first :: ·) same⟩
        · right
          exact ⟨place + 1, entry, Option.map_eq_some_iff.mpr ⟨place, found, rfl⟩, here, hit',
            congrArg (first :: ·) struck⟩

/-- What a cancellation strikes is a block that waited and that it names. -/
theorem of_victim? (found : ledger.victim? ref = some place) :
    ∃ message, ledger[place]? = some { message } ∧ Outbox.isRetractedBy ref message = true ∧
      (ledger.strike ref)[place]? = some ⟨message, .retracted⟩ := by
  rcases strike_cases ledger ref with ⟨none, -⟩ | ⟨place', entry, found', here, hit, struck⟩
  · rw [none] at found
    contradiction
  · obtain rfl : place' = place := Option.some.inj (found'.symm.trans found)
    obtain ⟨waits, named⟩ := Entry.isHitBy_iff.mp hit
    refine ⟨entry.message, ?_, named, ?_⟩
    · rw [here, ← waits]
    · rw [struck, List.getElem?_set_self (List.getElem?_eq_some_iff.mp here).1]

/-- A block that is hit is struck exactly when no block before it is hit. -/
theorem victim?_eq_iff (here : ledger[place]? = some entry) (hit : entry.isHitBy ref = true) :
    ledger.victim? ref = some place ↔ (ledger.take place).countP (Entry.isHitBy ref) = 0 := by
  obtain ⟨inside, rfl⟩ := List.getElem?_eq_some_iff.mp here
  rw [victim?, List.findIdx?_eq_some_iff_getElem, List.countP_eq_zero]
  constructor
  · rintro ⟨_, -, first⟩ other earlier
    obtain ⟨index, before, rfl⟩ := List.mem_take_iff_getElem.mp earlier
    exact first index (Nat.lt_of_lt_of_le before (Nat.min_le_left ..))
  · intro none
    refine ⟨inside, hit, ?_⟩
    intro index before
    refine none _ (List.mem_take_iff_getElem.mpr ⟨index, ?_, rfl⟩)
    exact Nat.lt_min.mpr ⟨before, Nat.lt_trans before inside⟩

/-- What a cancellation does not strike stays as it is. -/
theorem getElem?_strike_of_missed (missed : ledger.victim? ref ≠ some place) :
    (ledger.strike ref)[place]? = ledger[place]? := by
  rcases strike_cases ledger ref with ⟨-, same⟩ | ⟨struck, entry, found, -, -, same⟩
  · rw [same]
  · have other : struck ≠ place := fun equal => missed (equal ▸ found)
    rw [same, List.getElem?_set_ne other]

theorem lost_strike_iff : (ledger.strike ref).Lost place ↔
    ledger.Lost place ∨ ledger.victim? ref = some place := by
  constructor
  · rintro ⟨entry, here, retracted⟩
    by_cases struck : ledger.victim? ref = some place
    · exact .inr struck
    · rw [getElem?_strike_of_missed struck] at here
      exact .inl ⟨entry, here, retracted⟩
  · rintro (⟨entry, here, retracted⟩ | found)
    · exact ⟨entry, getElem?_settle here (by simp [retracted]), retracted⟩
    · obtain ⟨message, -, -, struck⟩ := of_victim? found
      exact ⟨_, struck, rfl⟩

/-- What a struck block had ahead of it, no cancellation hits. -/
theorem not_isHitBy_before {earlier : Nat} {other : Entry}
    (found : ledger.victim? ref = some place) (before : earlier < place)
    (there : ledger[earlier]? = some other) : other.isHitBy ref = false := by
  obtain ⟨inside, rfl⟩ := List.getElem?_eq_some_iff.mp there
  obtain ⟨_, -, first⟩ := List.findIdx?_eq_some_iff_getElem.mp found
  simpa using first earlier before

/-- Ahead of a block that is hit and not struck, a cancellation of its name strikes one
block, and a cancellation of another name none of this name. -/
theorem countP_take_strike (here : ledger[place]? = some { message })
    (hit : Outbox.isRetractedBy ref message = true)
    (missed : ledger.victim? ref' ≠ some place) :
    ((ledger.strike ref').take place).countP (Entry.isHitBy ref) + (if ref' = ref then 1 else 0) =
      (ledger.take place).countP (Entry.isHitBy ref) := by
  have hit' : Entry.isHitBy ref { message } = true := Entry.isHitBy_iff.mpr ⟨rfl, hit⟩
  rcases strike_cases ledger ref' with ⟨none, same⟩ | ⟨struck, entry, found, there, struckBy, same⟩
  · have other : ref' ≠ ref := by
      rintro rfl
      have inside := List.mem_of_getElem? here
      rw [List.findIdx?_eq_none_iff.mp none _ inside] at hit'
      contradiction
    rw [same, if_neg other, Nat.add_zero]
  · obtain ⟨inside, rfl⟩ := List.getElem?_eq_some_iff.mp there
    have spent : Entry.isHitBy ref { ledger[struck] with fate := .retracted } = false := rfl
    have ours : ledger[struck].isHitBy ref = decide (ref' = ref) := by
      by_cases same : ref' = ref
      · rw [← same, struckBy, decide_eq_true rfl]
      · rw [decide_eq_false same, Bool.eq_false_iff]
        intro hitToo
        exact same (ref_eq_of_hit (Entry.isHitBy_iff.mp hitToo).2 (Entry.isHitBy_iff.mp struckBy).2)
    rw [same]
    by_cases ahead : struck < place
    · have within : struck < (ledger.take place).length := by
        rw [List.length_take]
        exact Nat.lt_min.mpr ⟨ahead, inside⟩
      rw [List.take_set, List.countP_set within, spent, List.getElem_take, ours]
      by_cases same : ref' = ref
      · have some : 0 < (ledger.take place).countP (Entry.isHitBy ref) := by
          refine List.countP_pos_iff.mpr ⟨ledger[struck], ?_, by rw [ours, decide_eq_true same]⟩
          exact List.mem_take_iff_getElem.mpr ⟨struck, Nat.lt_min.mpr ⟨ahead, inside⟩, rfl⟩
        simp only [same, decide_true, if_true, Bool.false_eq_true, if_false]
        omega
      · simp [same]
    · have other : ref' ≠ ref := by
        rintro rfl
        have beyond : place < struck :=
          Nat.lt_of_le_of_ne (Nat.not_lt.mp ahead) fun equal => missed (equal ▸ found)
        rw [not_isHitBy_before found beyond here] at hit'
        contradiction
      rw [List.take_set_of_le (Nat.not_lt.mp ahead), if_neg other, Nat.add_zero]

end Strike

/-! ### Cancellations in a row -/

section Strikes

variable {ledger : Ledger} {ref : BlockRef} {place number : Nat} {message : Message}
  {deeds : List Outbox.Deed}

theorem strikes_append (ledger : Ledger) (deeds more : List Outbox.Deed) :
    ledger.strikes (deeds ++ more) =
      ledger.strikes deeds ++ strikes (deeds.foldl Ledger.record ledger) more := by
  induction deeds generalizing ledger with
  | nil => rfl
  | cons deed rest ih =>
      cases deed with
      | retracted ref => exact congrArg (ledger.victim? ref :: ·) (ih (ledger.strike ref))
      | accepted message => exact ih (ledger.enter [message])
      | handedOver message => exact ih ledger.handOver

theorem length_strikes (ledger : Ledger) (deeds : List Outbox.Deed) :
    (ledger.strikes deeds).length = (deeds.filterMap Outbox.Deed.retracted?).length := by
  induction deeds generalizing ledger with
  | nil => rfl
  | cons deed rest ih =>
      cases deed with
      | retracted ref => exact congrArg (· + 1) (ih (ledger.strike ref))
      | accepted message => exact ih (ledger.enter [message])
      | handedOver message => exact ih ledger.handOver

/-- Whatever becomes of a message, it keeps its place. -/
theorem message_foldl {fate : Fate} (here : ledger[place]? = some ⟨message, fate⟩)
    (deeds : List Outbox.Deed) :
    ∃ fate', (deeds.foldl Ledger.record ledger)[place]? = some ⟨message, fate'⟩ := by
  induction deeds generalizing ledger fate with
  | nil => exact ⟨fate, here⟩
  | cons deed rest ih =>
      have settle : ∀ found settled, ∃ fate',
          (ledger.settle found settled)[place]? = some ⟨message, fate'⟩ := by
        intro found settled
        rcases getElem?_settle_cases found settled ledger place with same | ⟨_, there, -, now⟩
        · exact ⟨fate, same.trans here⟩
        · obtain rfl := Option.some.inj (there.symm.trans here)
          exact ⟨settled, now⟩
      cases deed with
      | accepted more => exact ih (getElem?_enter here [more])
      | retracted ref =>
          obtain ⟨fate', now⟩ := settle (Outbox.isRetractedBy ref) .retracted
          exact ih now
      | handedOver sent =>
          obtain ⟨fate', now⟩ := settle (fun _ => true) .handedOver
          exact ih now

/-- Whoever comes later, or is handed over, is not retracted by that. -/
theorem lost_record_iff {deed : Outbox.Deed} (other : deed.retracted? = none) :
    (ledger.record deed).Lost place ↔ ledger.Lost place := by
  constructor
  · rintro ⟨entry, here, retracted⟩
    cases deed with
    | retracted ref => contradiction
    | accepted message =>
        rcases Nat.lt_or_ge place ledger.length with old | new
        · exact ⟨entry, by rwa [record, enter, List.getElem?_append_left old] at here, retracted⟩
        · rw [record, enter, List.getElem?_append_right new] at here
          obtain ⟨message', -, rfl⟩ := List.mem_map.mp (List.mem_of_getElem? here)
          contradiction
    | handedOver message =>
        rcases getElem?_settle_cases (fun _ => true) .handedOver ledger place with same | settled
        · exact ⟨entry, same ▸ here, retracted⟩
        · obtain ⟨entry', -, -, there⟩ := settled
          obtain rfl := Option.some.inj (there.symm.trans here)
          contradiction
  · rintro ⟨entry, here, retracted⟩
    exact ⟨entry, record_of_settled here (by simp [retracted]) deed, retracted⟩

theorem lost_foldl_iff (ledger : Ledger) (deeds : List Outbox.Deed) (place : Nat) :
    Lost (deeds.foldl Ledger.record ledger) place ↔
      ledger.Lost place ∨ some place ∈ ledger.strikes deeds := by
  induction deeds generalizing ledger with
  | nil => simp [strikes]
  | cons deed rest ih =>
      rw [List.foldl_cons, ih]
      cases deed with
      | retracted ref =>
          rw [record, lost_strike_iff, strikes, List.mem_cons, or_assoc]
          exact or_congr_right (or_congr_left eq_comm)
      | accepted message => exact or_congr_left (lost_record_iff rfl)
      | handedOver message => exact or_congr_left (lost_record_iff rfl)

/-- What is struck is named by the cancellation, and stays retracted. -/
theorem of_strikes (struck : (ledger.strikes deeds)[number]? = some (some place)) :
    ∃ ref message, (deeds.filterMap Outbox.Deed.retracted?)[number]? = some ref ∧
      Outbox.isRetractedBy ref message = true ∧
      (deeds.foldl Ledger.record ledger)[place]? = some ⟨message, .retracted⟩ := by
  induction deeds generalizing ledger number with
  | nil => contradiction
  | cons deed rest ih =>
      cases deed with
      | retracted ref =>
          cases number with
          | zero =>
              obtain ⟨message, -, hit, here⟩ := of_victim? (Option.some.inj struck)
              exact ⟨ref, message, rfl, hit, foldl_record_of_settled here nofun rest⟩
          | succ number => exact ih struck
      | accepted message => exact ih struck
      | handedOver message => exact ih struck

/-- A message whose fate is settled is struck no more. -/
theorem not_mem_strikes {entry : Entry} (here : ledger[place]? = some entry)
    (settled : entry.fate ≠ .queued) : some place ∉ ledger.strikes deeds := by
  induction deeds generalizing ledger with
  | nil => exact List.not_mem_nil
  | cons deed rest ih =>
      have later := ih (record_of_settled here settled deed)
      cases deed with
      | retracted ref =>
          intro struck
          rcases List.mem_cons.mp struck with now | then_
          · obtain ⟨message, waited, -⟩ := of_victim? now.symm
            obtain rfl := Option.some.inj (waited.symm.trans here)
            contradiction
          · exact later then_
      | accepted message => exact later
      | handedOver message => exact later

/-- While no message is handed over, a cancellation strikes the block that has as many of
its name ahead of it as there are cancellations of this name that go first. -/
theorem strikes_getElem?_iff (here : ledger[place]? = some { message })
    (hit : Outbox.isRetractedBy ref message = true)
    (taken : (deeds.filterMap Outbox.Deed.retracted?)[number]? = some ref)
    (prompt : ∀ before sent later, deeds = before ++ .handedOver sent :: later →
      number < (before.filterMap Outbox.Deed.retracted?).length) :
    (ledger.strikes deeds)[number]? = some (some place) ↔
      (ledger.take place).countP (Entry.isHitBy ref) =
        ((deeds.filterMap Outbox.Deed.retracted?).take number).count ref := by
  induction deeds generalizing ledger number with
  | nil => contradiction
  | cons deed rest ih =>
      have prompt' : ∀ before sent later, rest = before ++ .handedOver sent :: later →
          number < ((deed :: before).filterMap Outbox.Deed.retracted?).length :=
        fun before sent later split => prompt (deed :: before) sent later (congrArg _ split)
      cases deed with
      | handedOver sent => exact absurd (prompt [] sent rest rfl) (Nat.not_lt_zero _)
      | accepted more =>
          have inside := (List.getElem?_eq_some_iff.mp here).1
          have kept := ih (getElem?_enter here [more]) taken prompt'
          rwa [enter, List.take_append_of_le_length (Nat.le_of_lt inside)] at kept
      | retracted ref' =>
          cases number with
          | zero =>
              obtain rfl : ref' = ref := Option.some.inj taken
              rw [List.take_zero, List.count_nil, strikes, List.getElem?_cons_zero, Option.some_inj]
              exact victim?_eq_iff here (Entry.isHitBy_iff.mpr ⟨rfl, hit⟩)
          | succ number =>
              have named : (Outbox.Deed.retracted ref' :: rest).filterMap Outbox.Deed.retracted? =
                  ref' :: rest.filterMap Outbox.Deed.retracted? := rfl
              rw [strikes, List.getElem?_cons_succ, named, List.take_succ_cons, List.count_cons]
              by_cases struck : ledger.victim? ref' = some place
              · obtain ⟨message', waited, named, now⟩ := of_victim? struck
                obtain rfl : message' = message := by
                  simpa using waited.symm.trans here
                obtain rfl := ref_eq_of_hit hit named
                have none := (victim?_eq_iff here (Entry.isHitBy_iff.mpr ⟨rfl, hit⟩)).mp struck
                refine iff_of_false ?_ ?_
                · intro again
                  exact not_mem_strikes now (by simp) (List.mem_of_getElem? again)
                · simp [none]
              · have waits := (getElem?_strike_of_missed struck).trans here
                rw [ih waits taken ?_, ← countP_take_strike here hit struck]
                · simp
                · intro before sent later split
                  exact Nat.lt_of_succ_lt_succ (prompt' before sent later split)

end Strikes

/-- The blocks of one name that wait, told by their messages. -/
theorem countP_isHitBy (ledger : Ledger) (ref : BlockRef) :
    ledger.countP (Entry.isHitBy ref) =
      (ledger.withFate .queued).countP (Outbox.isRetractedBy ref) := by
  rw [withFate, List.countP_map, List.countP_filter]
  refine List.countP_congr ?_
  intro entry _
  simp [Entry.isHitBy, and_comm]

end Ledger

namespace Outbox

namespace World

variable {w : World}

/-! ### Cancellations are taken up in their order -/

/-- The cancellation that is accepted with an event. -/
def cancellation? (w : World) : Event → Option BlockRef
  | .cancel who ref => if (w.box.cancels.put who ref).1 = .accepted then some ref else none
  | _ => none

/-- All cancellations that are accepted along a history, in their order. -/
def cancellations (w : World) : List Event → List BlockRef
  | [] => []
  | event :: history => (w.cancellation? event).toList ++ (w.after event).cancellations history

/-- What every cancellation struck that was taken up along a history. -/
def strikes (w : World) (history : List Event) : List (Option Nat) :=
  Ledger.strikes [] (w.deeds history)

theorem strikes_append (w : World) (past later : List Event) : w.strikes (past ++ later) =
    w.strikes past ++ (w.ledger past).strikes ((w.run past).deeds later) := by
  rw [strikes, deeds_append, Ledger.strikes_append]
  rfl

theorem cancellations_append (w : World) (past later : List Event) :
    w.cancellations (past ++ later) =
      w.cancellations past ++ (w.run past).cancellations later := by
  induction past generalizing w with
  | nil => rfl
  | cons first rest ih =>
      have run : w.run (first :: rest) = (w.after first).run rest := rfl
      rw [List.cons_append, cancellations, cancellations, ih, run, List.append_assoc]

/-- Those that are accepted join the ones that wait; the first of these leaves when it is
taken up, and all of them when the task ends. -/
theorem cancelled_after (sound : w.box.Sound) (event : Event) :
    ∃ left, w.box.cancels.items ++ (w.cancellation? event).toList =
      (w.deed? event).toList.filterMap Deed.retracted? ++ left ∧
      ((w.after event).box.hasStopped = false → left = (w.after event).box.cancels.items) := by
  cases event with
  | turn =>
      have uninvolved : w.cancellation? .turn = none := rfl
      rw [uninvolved, Option.toList_none, List.append_nil]
      rcases turned_after sound with ⟨unseen, same⟩ | ⟨box, turned, next⟩
      · rw [unseen, same]
        exact ⟨_, rfl, fun _ => rfl⟩
      · rw [next]
        generalize w.deed? .turn = deed at turned
        cases turned with
        | @retracted ref later _ torn front queue slot cancels =>
            rw [front]
            exact ⟨later, rfl, fun still => (cancels still).symm⟩
        | handedOver torn uncancelled queue slot cancels =>
            rw [uncancelled]
            exact ⟨[], rfl, fun _ => cancels.symm⟩
        | rested torn uncancelled queue slot cancels =>
            rw [uncancelled]
            exact ⟨[], rfl, fun _ => cancels.symm⟩
        | gaveUp forced => exact ⟨_, rfl, nofun⟩
  | cancel who ref =>
      refine ⟨_, rfl, fun _ => ?_⟩
      simp only [cancellation?, after, Mailbox.items_put]
      split <;> rfl
  | push who message =>
      obtain ⟨incoming, next, -⟩ := w.push_after who message
      have uninvolved : w.cancellation? (.push who message) = none := rfl
      rw [next, uninvolved, Option.toList_none, List.append_nil]
      rcases w.push_deed? who message with unseen | accepted
      · rw [unseen]
        exact ⟨_, rfl, fun _ => rfl⟩
      · rw [accepted]
        exact ⟨_, rfl, fun _ => rfl⟩
  | _ => exact ⟨_, List.append_nil _, fun _ => rfl⟩

/-- Cancellations are taken up in the order of their acceptance; while the task runs, those
that were not taken up wait. -/
theorem cancelled_run (sound : w.box.Sound) (history : List Event) :
    ∃ left, w.box.cancels.items ++ w.cancellations history =
      (w.deeds history).filterMap Deed.retracted? ++ left ∧
      ((w.run history).box.hasStopped = false → left = (w.run history).box.cancels.items) := by
  induction history using List.reverseRecOn with
  | nil => exact ⟨_, List.append_nil _, fun _ => rfl⟩
  | append_singleton past event ih =>
      obtain ⟨left, taken, waiting⟩ := ih
      have still := sound_run sound past
      have one : (w.run past).cancellations [event] = ((w.run past).cancellation? event).toList :=
        List.append_nil _
      rw [run_concat, cancellations_append, one, deeds_concat, List.filterMap_append,
        ← List.append_assoc, taken, List.append_assoc]
      by_cases running : (w.run past).box.hasStopped = false
      · obtain ⟨left', step, waiting'⟩ := cancelled_after still event
        rw [waiting running, step]
        exact ⟨left', (List.append_assoc ..).symm, waiting'⟩
      · have unseen := deed?_of_stopped still (by simpa using running) event
        rw [unseen, Option.toList_none, List.filterMap_nil, List.append_nil]
        refine ⟨left ++ ((w.run past).cancellation? event).toList, rfl, ?_⟩
        intro continued
        exact absurd (hasStopped_after continued) running

/-- The task hands the oldest message over, as soon as it has nothing better to do and the
slot has room. -/
theorem full_of_waiting (sound : w.box.Sound) (running : w.box.hasStopped = false)
    (waiting : w.box.turn w.tornDown = none) (queued : w.box.queue ≠ []) :
    w.box.slot.isOpen = true ∧ w.box.slot.hasRoom 0 = false := by
  have waits := waits_of_turn running waiting
  have quiet : w.box.incoming.items = [] := by
    by_cases listening : w.box.isListening = true
    · exact (waits.quiet listening).1
    · exact (sound.deaf (by simpa using listening)).2
  apply full_of_unsent waits.unsent
  intro pending
  exact queued (by rw [queue, pending, quiet]; rfl)

/-! ### A block that is accepted after a cancellation -/

section Later

variable {ref : BlockRef} {message : Message} {history later : List Event} {who : Option Party}
  {number : Nat}

/-- Of two ways to write a row of cancellations, what both parts reach is the same. -/
theorem taken_of_order {waiting joined taken left : List BlockRef}
    (order : waiting ++ joined = taken ++ left) (waits : waiting[number]? = some ref)
    (reached : number < taken.length) :
    taken[number]? = some ref ∧ taken.take number = waiting.take number := by
  have inside := (List.getElem?_eq_some_iff.mp waits).1
  constructor
  · calc taken[number]? = (taken ++ left)[number]? := (List.getElem?_append_left reached).symm
      _ = (waiting ++ joined)[number]? := by rw [order]
      _ = waiting[number]? := List.getElem?_append_left inside
      _ = some ref := waits
  · calc taken.take number = (taken ++ left).take number :=
          (List.take_append_of_le_length (Nat.le_of_lt reached)).symm
      _ = (waiting ++ joined).take number := by rw [order]
      _ = waiting.take number := List.take_append_of_le_length (Nat.le_of_lt inside)

/-- A cancellation that waits when the message is accepted strikes it exactly when it is
taken up, names it, and has no block of its name left over for it ahead of the message. -/
theorem struck_of_waiting (sound : w.box.Sound) (waits : w.box.cancels.items[number]? = some ref)
    {ledger : Ledger} {place : Nat} (here : ledger[place]? = some { message })
    (later : List Event) :
    (ledger.strikes (w.deeds later))[number]? = some (some place) ↔
      number < (ledger.strikes (w.deeds later)).length ∧ isRetractedBy ref message = true ∧
        (ledger.take place).countP (Entry.isHitBy ref) =
          (w.box.cancels.items.take number).count ref := by
  obtain ⟨left, order, -⟩ := cancelled_run sound later
  rw [Ledger.length_strikes]
  by_cases reached : number < ((w.deeds later).filterMap Deed.retracted?).length
  · obtain ⟨taken, ahead⟩ := taken_of_order order waits reached
    by_cases hit : isRetractedBy ref message = true
    · have prompt : ∀ before sent rest, w.deeds later = before ++ .handedOver sent :: rest →
          number < (before.filterMap Deed.retracted?).length := by
        intro before sent rest split
        obtain ⟨early, event, tail, rfl, rfl, handed⟩ := deeds_eq_append_cons split
        have first := (cancels_before_handOver sound handed).length_le
        exact Nat.lt_of_lt_of_le (List.getElem?_eq_some_iff.mp waits).1 first
      rw [Ledger.strikes_getElem?_iff here hit taken prompt, ahead]
      simp [reached, hit]
    · refine iff_of_false ?_ (fun claimed => hit claimed.2.1)
      intro struck
      obtain ⟨ref', message', named, hit', there⟩ := Ledger.of_strikes struck
      obtain ⟨fate, there'⟩ := Ledger.message_foldl here (w.deeds later)
      obtain rfl := Option.some.inj (taken.symm.trans named)
      obtain ⟨rfl, -⟩ := Entry.mk.inj (Option.some.inj (there.symm.trans there'))
      exact hit hit'
  · refine iff_of_false ?_ (fun claimed => reached claimed.1)
    intro struck
    rw [← Ledger.length_strikes ledger] at reached
    exact reached (List.getElem?_eq_some_iff.mp struck).1

/-- What changes when a message is accepted. -/
structure Arrives (w : World) (history : List Event) (who : Option Party) (message : Message) :
    Prop where
  running : (w.run history).box.hasStopped = false
  ledger : w.ledger (history ++ [.push who message]) = (w.ledger history).enter [message]
  strikes : w.strikes (history ++ [.push who message]) = w.strikes history
  cancels : (w.run (history ++ [.push who message])).box.cancels = (w.run history).box.cancels

theorem arrives (sound : w.box.Sound)
    (accepted : (w.run history).deed? (.push who message) = some (.accepted message)) :
    w.Arrives history who message where
  running := by
    by_contra stopped
    rw [deed?_of_stopped (sound_run sound history) (by simpa using stopped)] at accepted
    contradiction
  ledger := by
    rw [ledger_concat, accepted]
    rfl
  strikes := by
    rw [strikes_append, deeds, accepted]
    exact List.append_nil _
  cancels := by
    obtain ⟨incoming, next, -⟩ := (w.run history).push_after who message
    rw [run_concat, next]

/-- The message stands in its place from the moment of its acceptance. -/
theorem Arrives.here (came : w.Arrives history who message) :
    (w.ledger (history ++ [.push who message]))[(w.ledger history).length]? =
      some { message } := by
  rw [came.ledger]
  exact List.getElem?_concat_length ..

/-- What is struck in a history stands in its ledger. -/
theorem lt_of_struck {place : Nat} (struck : (w.strikes history)[number]? = some (some place)) :
    place < (w.ledger history).length := by
  obtain ⟨_, _, -, -, here⟩ := Ledger.of_strikes struck
  exact (List.getElem?_eq_some_iff.mp here).1

/-- A cancellation that was taken up before a message came never strikes it. -/
theorem le_of_struck (came : w.Arrives history who message)
    (struck : (w.strikes (history ++ [.push who message] ++ later))[number]? =
      some (some (w.ledger history).length)) :
    (w.strikes history).length ≤ number := by
  by_contra early
  rw [strikes_append, came.strikes, List.getElem?_append_left (Nat.not_le.mp early)] at struck
  exact Nat.lt_irrefl _ (lt_of_struck struck)

/-- While the task runs, a cancellation that was not taken up waits in its turn. -/
theorem waits_of_cancelled (sound : w.box.Sound) (quiet : w.box.cancels.items = [])
    (running : (w.run history).box.hasStopped = false)
    (cancelled : (w.cancellations history)[number]? = some ref)
    (waited : (w.strikes history).length ≤ number) :
    (w.run history).box.cancels.items[number - (w.strikes history).length]? = some ref := by
  obtain ⟨left, order, waiting⟩ := cancelled_run sound history
  have length := Ledger.length_strikes [] (w.deeds history)
  rw [quiet, List.nil_append] at order
  rw [strikes, length] at waited ⊢
  rw [← waiting running, ← List.getElem?_append_right waited, ← order, cancelled]

/-- Exactly when a cancellation that was accepted before a message strikes it. -/
theorem struck_iff (sound : w.box.Sound) (quiet : w.box.cancels.items = [])
    (empty : w.box.queue = []) (came : w.Arrives history who message)
    (cancelled : (w.cancellations history)[number]? = some ref) :
    (w.strikes (history ++ [.push who message] ++ later))[number]? =
        some (some (w.ledger history).length) ↔
      (w.strikes history).length ≤ number ∧
        number < (w.strikes (history ++ [.push who message] ++ later)).length ∧
        isRetractedBy ref message = true ∧
        (w.run history).box.queue.countP (isRetractedBy ref) =
          ((w.run history).box.cancels.items.take
            (number - (w.strikes history).length)).count ref := by
  by_cases waited : (w.strikes history).length ≤ number
  · obtain ⟨-, queued, -⟩ := kept sound empty history
    have waits := waits_of_cancelled sound quiet came.running cancelled waited
    rw [← came.cancels] at waits
    have settled := struck_of_waiting (sound_run sound _) waits came.here later
    rw [came.cancels, came.ledger, Ledger.enter, List.take_left, Ledger.countP_isHitBy,
      queued came.running] at settled
    rw [strikes_append, came.strikes, came.ledger, Ledger.enter,
      List.getElem?_append_right waited, settled, List.length_append,
      Nat.sub_lt_iff_lt_add' waited]
    exact (and_iff_right waited).symm
  · refine iff_of_false ?_ (fun claimed => waited claimed.1)
    intro struck
    exact waited (le_of_struck came struck)

/-- Whoever strikes a message names it. -/
theorem named_of_struck (sound : w.box.Sound) (quiet : w.box.cancels.items = [])
    {fate : Fate} {place : Nat} (here : (w.ledger history)[place]? = some ⟨message, fate⟩)
    (struck : (w.strikes history)[number]? = some (some place)) :
    ∃ ref, (w.cancellations history)[number]? = some ref ∧ isRetractedBy ref message = true := by
  obtain ⟨ref, message', taken, hit, here'⟩ := Ledger.of_strikes struck
  obtain ⟨rfl, -⟩ := Entry.mk.inj (Option.some.inj (here.symm.trans here'))
  obtain ⟨left, order, -⟩ := cancelled_run sound history
  rw [quiet, List.nil_append] at order
  refine ⟨ref, ?_, hit⟩
  rw [order, List.getElem?_append_left (List.getElem?_eq_some_iff.mp taken).1, taken]

/-- A message is retracted by whoever strikes it, and in no other way. -/
theorem retracted_iff_struck {fate : Fate} {place : Nat}
    (here : (w.ledger history)[place]? = some ⟨message, fate⟩) :
    fate = .retracted ↔ ∃ number : Nat, (w.strikes history)[number]? = some (some place) := by
  rw [← List.mem_iff_getElem?]
  have lost := Ledger.lost_foldl_iff [] (w.deeds history) place
  constructor
  · intro retracted
    exact (lost.mp ⟨_, here, retracted⟩).resolve_left nofun
  · intro struck
    obtain ⟨entry, here', retracted⟩ := lost.mpr (.inr struck)
    obtain rfl := Option.some.inj (here.symm.trans here')
    exact retracted

end Later

/-- A cancellation reaches a block that was accepted after it, if only the cancellation has
not been taken up by then.

The `number`-th cancellation is accepted, and after some events a message, which joins the
ledger in `place`. The cancellation strikes the message exactly when it still waits at this
moment, names the message, finds as many blocks of its name queued as there are waiting
cancellations of this name that go first, and is taken up at last. One that was taken up
before never does, whatever it names. The message is retracted only by a cancellation that
strikes it; otherwise it waits until it is handed over in its turn, which happens as soon as
the slot has room, unless the connection is torn down or the task ends. -/
theorem later_block_struck_iff (incoming cancels slot : Nat) (past between later : List Event)
    (who who' : Option Party) (ref : BlockRef) (message : Message)
    (cancelled : ((start incoming cancels slot).run past).cancellation? (.cancel who ref) =
      some ref)
    (accepted : ((start incoming cancels slot).run (past ++ .cancel who ref :: between)).deed?
      (.push who' message) = some (.accepted message)) :
    let w := start incoming cancels slot
    let before := past ++ .cancel who ref :: between
    let whole := before ++ [.push who' message] ++ later
    let number := (w.cancellations past).length
    let place := (w.ledger before).length
    let taken := (w.strikes before).length
    ((w.strikes whole)[number]? = some (some place) ↔
      taken ≤ number ∧ number < (w.strikes whole).length ∧ isRetractedBy ref message = true ∧
        (w.run before).box.queue.countP (isRetractedBy ref) =
          ((w.run before).box.cancels.items.take (number - taken)).count ref) ∧
    (∀ other : Nat, (w.strikes whole)[other]? = some (some place) → taken ≤ other ∧
      ∃ ref', (w.cancellations whole)[other]? = some ref' ∧ isRetractedBy ref' message = true) ∧
    ∃ fate : Fate, (w.ledger whole)[place]? = some (⟨message, fate⟩ : Entry) ∧
      (fate = .retracted ↔ ∃ other : Nat, (w.strikes whole)[other]? = some (some place)) ∧
      (w.ledger whole).InOrder ∧
      (fate = .queued → (w.run whole).box.hasStopped = false →
        message ∈ (w.run whole).box.queue ∧
          ((w.run whole).box.turn (w.run whole).tornDown = none →
            (w.run whole).box.slot.isOpen = true ∧
              (w.run whole).box.slot.hasRoom 0 = false)) := by
  intro w before whole number place taken
  have sound : w.box.Sound := sound_start incoming cancels slot
  have came := arrives sound accepted
  have waited : (w.cancellations before)[number]? = some ref := by
    rw [cancellations_append, World.cancellations, cancelled]
    simp [number]
  obtain ⟨inOrder, queued, -⟩ := kept sound rfl whole
  obtain ⟨fate, here⟩ := Ledger.message_foldl came.here
    ((w.run (before ++ [.push who' message])).deeds later)
  rw [← ledger_append] at here
  refine ⟨struck_iff sound rfl rfl came waited, ?_, fate, here, retracted_iff_struck here,
    inOrder, ?_⟩
  · intro other struck
    exact ⟨le_of_struck came struck, named_of_struck sound rfl here struck⟩
  · rintro rfl running
    have waits : message ∈ (w.run whole).box.queue := by
      rw [← queued running]
      exact List.mem_map.mpr ⟨_, List.mem_filter.mpr ⟨List.mem_of_getElem? here, by simp⟩, rfl⟩
    refine ⟨waits, ?_⟩
    intro waiting
    exact full_of_waiting (sound_run sound whole) running waiting (List.ne_nil_of_mem waits)

/-- The cancellation is accepted first, then the block, and only then the task has its turn:
the block is retracted and never written. -/
theorem later_block_struck :
    let w := start 8 8 1
    let ref : BlockRef := { piece := 4, offset := 0, length := 2 }
    let block : Message := .piece { piece := 4, offset := 0, data := [1, 2] }
    let whole : List Event := [.cancel none ref, .push none block, .turn, .turn, .turn]
    w.cancellation? (.cancel none ref) = some ref ∧
      (w.run [.cancel none ref]).deed? (.push none block) = some (.accepted block) ∧
      (w.strikes whole)[0]? = some (some 0) ∧
      w.ledger whole = [⟨block, .retracted⟩] ∧
      (w.deeds whole).filterMap Deed.handedOver? = [] := by
  decide

/-- With a block of this name queued before, the cancellation spares the later one. -/
theorem later_block_struck_iff_spared :
    let w := start 8 8 1
    let ref : BlockRef := { piece := 4, offset := 0, length := 2 }
    let block : Message := .piece { piece := 4, offset := 0, data := [1, 2] }
    let past : List Event := [.push none block]
    let before := past ++ .cancel none ref :: []
    (w.run past).cancellation? (.cancel none ref) = some ref ∧
      (w.run before).deed? (.push none block) = some (.accepted block) ∧
      (w.strikes (before ++ [.push none block] ++ [.turn]))[0]? ≠ some (some 1) := by
  intro w ref block past before
  have cancelled : (w.run past).cancellation? (.cancel none ref) = some ref := by decide
  have accepted : (w.run before).deed? (.push none block) = some (.accepted block) := by decide
  refine ⟨cancelled, accepted, ?_⟩
  intro struck
  have settled :=
    later_block_struck_iff 8 8 1 past [] [.turn] none none ref block cancelled accepted
  obtain ⟨-, -, -, equal⟩ := settled.1.mp struck
  exact absurd equal (by decide)

end World

end Outbox

end PeerWire

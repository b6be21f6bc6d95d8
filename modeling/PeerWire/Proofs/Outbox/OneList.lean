import PeerWire.Proofs.Outbox.Runs

/-!
The write queue is one list. Its messages stand in two places, those that have arrived and
those that are taken in, but every event acts on `Outbox.queue`, which is the two of them
in a row, as its deed acts on a single list; the one exception is the step with which the
task gives up. A cancellation goes before every hand-over, so the block that it finds at
the moment of its acceptance never reaches the writer.

Which of several equal blocks it is that a cancellation strikes can only be said of the
ledger, where every message keeps its place.
-/

namespace PeerWire

namespace Outbox

/-- What a deed does to a queue that is a single list. -/
inductive OneList : Option Deed → List Message → List Message → Prop where
  | accepted (message : Message) (queue : List Message) :
      OneList (some (.accepted message)) queue (queue ++ [message])
  | retracted (ref : BlockRef) (queue : List Message) :
      OneList (some (.retracted ref)) queue (queue.eraseP (isRetractedBy ref))
  | handedOver (message : Message) (queue : List Message) :
      OneList (some (.handedOver message)) (message :: queue) queue
  | unchanged (queue : List Message) : OneList none queue queue

/-- The cancellation that was taken up. -/
def Deed.retracted? : Deed → Option BlockRef
  | .retracted ref => some ref
  | _ => none

/-- The message that was handed over. -/
def Deed.handedOver? : Deed → Option Message
  | .handedOver message => some message
  | _ => none

end Outbox

namespace Ledger

/-- A deed is entered. -/
def record (ledger : Ledger) : Outbox.Deed → Ledger
  | .accepted message => ledger.enter [message]
  | .retracted ref => ledger.strike ref
  | .handedOver _ => ledger.handOver

/-- The message in this place still waits, and a cancellation `ref` would strike it. -/
structure Awaits (ledger : Ledger) (ref : BlockRef) (place : Nat) (message : Message) : Prop where
  here : ledger[place]? = some { message }
  hit : Outbox.isRetractedBy ref message = true
  first : ∀ earlier < place, ∀ entry, ledger[earlier]? = some entry → entry.fate = .queued →
    Outbox.isRetractedBy ref entry.message = false

/-- Of the messages that a cancellation would strike, there is a first. -/
theorem awaits_of_queued {ledger : Ledger} {ref : BlockRef} {place : Nat} {message : Message}
    (waits : ledger[place]? = some { message })
    (hit : Outbox.isRetractedBy ref message = true) :
    ∃ first ≤ place, ∃ struck, ledger.Awaits ref first struck := by
  induction place using Nat.strongRecOn generalizing message with
  | ind place ih =>
      by_cases earliest : ∀ earlier < place, ∀ entry, ledger[earlier]? = some entry →
          entry.fate = .queued → Outbox.isRetractedBy ref entry.message = false
      · exact ⟨place, Nat.le_refl place, message, waits, hit, earliest⟩
      · push Not at earliest
        obtain ⟨earlier, before, ⟨other, fate⟩, inside, rfl, struck⟩ := earliest
        obtain ⟨first, least, found⟩ := ih earlier before inside (by simpa using struck)
        exact ⟨first, Nat.le_trans least (Nat.le_of_lt before), found⟩

section Record

variable {ledger : Ledger} {ref : BlockRef} {place : Nat} {message : Message}

/-- A message whose fate is settled keeps it. -/
theorem record_of_settled {entry : Entry} (here : ledger[place]? = some entry)
    (settled : entry.fate ≠ .queued) (deed : Outbox.Deed) :
    (ledger.record deed)[place]? = some entry := by
  cases deed with
  | accepted more => exact getElem?_enter here [more]
  | retracted ref => exact getElem?_settle here (settled ·.1)
  | handedOver first => exact getElem?_settle here (settled ·.1)

theorem foldl_record_of_settled {entry : Entry} (here : ledger[place]? = some entry)
    (settled : entry.fate ≠ .queued) (deeds : List Outbox.Deed) :
    (deeds.foldl Ledger.record ledger)[place]? = some entry := by
  induction deeds generalizing ledger with
  | nil => exact here
  | cons deed rest ih => exact ih (record_of_settled here settled deed)

/-- Only one cancellation names a given block. -/
theorem ref_eq_of_hit {ref' : BlockRef} (hit : Outbox.isRetractedBy ref message = true)
    (hit' : Outbox.isRetractedBy ref' message = true) : ref' = ref := by
  cases message with
  | piece block =>
      simp only [Outbox.isRetractedBy, Block.isNamedBy, Bool.and_eq_true, beq_iff_eq] at hit hit'
      cases ref
      cases ref'
      simp_all [UInt32.toNat_inj]
  | _ => contradiction

/-- Until the cancellation is taken up, or a message is handed over, the block waits in
its place. -/
theorem Awaits.record (awaits : ledger.Awaits ref place message) {deed : Outbox.Deed}
    (other : deed ≠ .retracted ref) (kept : deed.handedOver? = none) :
    (ledger.record deed).Awaits ref place message := by
  cases deed with
  | handedOver first => contradiction
  | accepted more =>
      refine ⟨getElem?_enter awaits.here [more], awaits.hit, ?_⟩
      intro earlier before entry inside waits
      have shorter : earlier < ledger.length :=
        Nat.lt_trans before (List.getElem?_eq_some_iff.mp awaits.here).1
      refine awaits.first earlier before entry ?_ waits
      rwa [Ledger.record, enter, List.getElem?_append_left shorter] at inside
  | retracted ref' =>
      have missed : Outbox.isRetractedBy ref' message = false := by
        by_contra struck
        exact other (congrArg _ (ref_eq_of_hit awaits.hit (by simpa using struck)))
      refine ⟨getElem?_settle awaits.here (by simp [missed]), awaits.hit, ?_⟩
      intro earlier before entry inside waits
      exact awaits.first earlier before entry
        (getElem?_of_settle (by decide) inside waits) waits

/-- When the cancellation is taken up, the block is retracted. -/
theorem Awaits.strike (awaits : ledger.Awaits ref place message) :
    (ledger.strike ref)[place]? = some { message, fate := .retracted } :=
  getElem?_settle_first awaits.here rfl awaits.hit awaits.first

/-- A block is never handed over when its cancellation is taken up before any hand-over. -/
theorem Awaits.spared (awaits : ledger.Awaits ref place message) (deeds : List Outbox.Deed)
    (prompt : ∀ before later sent, deeds = before ++ .handedOver sent :: later →
      .retracted ref ∈ before) :
    ∃ fate, fate ≠ .handedOver ∧
      (deeds.foldl Ledger.record ledger)[place]? = some { message, fate } := by
  induction deeds generalizing ledger with
  | nil => exact ⟨.queued, by decide, awaits.here⟩
  | cons deed rest ih =>
      by_cases struck : deed = .retracted ref
      · refine ⟨.retracted, by decide, foldl_record_of_settled ?_ (by simp) rest⟩
        rw [struck]
        exact awaits.strike
      · have kept : deed.handedOver? = none := by
          cases deed with
          | handedOver sent => exact absurd (prompt [] rest sent rfl) List.not_mem_nil
          | _ => rfl
        refine ih (awaits.record struck kept) ?_
        intro before later sent split
        have early := prompt (deed :: before) later sent (by rw [split]; rfl)
        exact (List.mem_cons.mp early).resolve_left (Ne.symm struck)

end Record

end Ledger

namespace Outbox

namespace World

variable {w : World} {event : Event}

/-- The ledger after a history. -/
def ledger (w : World) (history : List Event) : Ledger :=
  (w.deeds history).foldl Ledger.record []

/-- The task gives up with this event, since the connection is torn down or the writer gone. -/
def GivesUp (w : World) (event : Event) : Prop :=
  event = .turn ∧ (w.tornDown = true ∨ w.box.cancels.items = [] ∧ w.box.slot.isOpen = false) ∧
    w.deed? event = none ∧ w.after event = { w with box := w.box.stop }

/-! ### One event -/

/-- A step of the task is of one of the four sorts, unless the task waits or has ended. -/
theorem turned_after (sound : w.box.Sound) : w.deed? .turn = none ∧ w.after .turn = w ∨
    ∃ box, Turned w.box w.tornDown (w.deed? .turn) box ∧ w.after .turn = { w with box } := by
  cases step : w.box.turn w.tornDown with
  | none => exact .inl ⟨turnDeed?_of_waiting step, by simp [after, step]⟩
  | some box => exact .inr ⟨box, (sound.turn step).1, by simp [after, step]⟩

/-- Whoever puts a message in changes nothing but what has arrived. -/
theorem push_after (w : World) (who : Option Party) (message : Message) :
    ∃ incoming, w.after (.push who message) = { w with box := { w.box with incoming } } ∧
      incoming.items = w.box.incoming.items ++
        if w.deed? (.push who message) = some (.accepted message) then [message] else [] := by
  by_cases senders : w.box.hasSenders = true
  · refine ⟨(w.box.incoming.put who message).2, by simp [after, senders], ?_⟩
    rw [Mailbox.items_put]
    simp [deed?, senders]
  · exact ⟨w.box.incoming, if_neg senders, by simp [deed?, senders]⟩

theorem push_deed? (w : World) (who : Option Party) (message : Message) :
    w.deed? (.push who message) = none ∨
      w.deed? (.push who message) = some (.accepted message) := by
  unfold deed?
  dsimp only
  split
  · exact .inr rfl
  · exact .inl rfl

theorem oneList_of_turned {box box' : Outbox} {tornDown : Bool} {deed : Option Deed}
    (turned : Turned box tornDown deed box') :
    OneList deed box.queue box'.queue ∨
      (tornDown = true ∨ box.cancels.items = [] ∧ box.slot.isOpen = false) ∧
        deed = none ∧ box' = box.stop := by
  cases turned with
  | @retracted ref later _ torn front queue slot cancels =>
      rw [queue]
      exact .inl (.retracted ref box.queue)
  | @handedOver message _ torn uncancelled queue slot cancels =>
      rw [queue]
      exact .inl (.handedOver message box'.queue)
  | rested torn uncancelled queue slot cancels =>
      rw [queue]
      exact .inl (.unchanged box.queue)
  | gaveUp forced => exact .inr ⟨forced, rfl, rfl⟩

/-- Every event acts on the queue as its deed acts on a single list. -/
theorem oneList_after (sound : w.box.Sound) (event : Event) :
    OneList (w.deed? event) w.box.queue (w.after event).box.queue ∨ w.GivesUp event := by
  cases event with
  | turn =>
      rcases turned_after sound with ⟨unseen, same⟩ | ⟨box, turned, next⟩
      · rw [unseen, same]
        exact .inl (.unchanged w.box.queue)
      · rcases oneList_of_turned turned with acts | ⟨forced, unseen, rfl⟩
        · rw [next]
          exact .inl acts
        · exact .inr ⟨rfl, forced, unseen, next⟩
  | push who message =>
      left
      obtain ⟨incoming, next, items⟩ := w.push_after who message
      rw [next, queue, queue, items, ← List.append_assoc]
      rcases w.push_deed? who message with unseen | accepted
      · simp only [unseen, reduceCtorEq, if_false, List.append_nil]
        exact .unchanged _
      · rw [accepted, if_pos rfl]
        exact .accepted message _
  | _ => exact .inl (.unchanged w.box.queue)

theorem hasStopped_after (running : (w.after event).box.hasStopped = false) :
    w.box.hasStopped = false := by
  cases event with
  | turn =>
      by_contra stopped
      have waiting : w.box.turn w.tornDown = none := by simp [Outbox.turn, stopped]
      simp [after, waiting, stopped] at running
  | push who message =>
      obtain ⟨incoming, next, -⟩ := w.push_after who message
      rwa [next] at running
  | _ => exact running

/-- Once the task has ended, nothing is seen any more. -/
theorem deed?_of_stopped (sound : w.box.Sound) (stopped : w.box.hasStopped = true)
    (event : Event) : w.deed? event = none := by
  cases event with
  | turn => exact turnDeed?_of_waiting (by simp [Outbox.turn, stopped])
  | push who message =>
      have shut := Mailbox.put_of_closed _ who message (sound.stopped stopped).1
      simp [deed?, shut]
  | _ => rfl

/-- A message is handed over by the task only, from the head of the queue into the slot,
and only when no cancellation waits and the connection stands. -/
theorem of_handedOver (sound : w.box.Sound) {message : Message}
    (handed : w.deed? event = some (.handedOver message)) :
    event = .turn ∧ w.tornDown = false ∧ w.box.cancels.items = [] ∧
      (w.after event).box.slot = w.box.slot.push message := by
  cases event with
  | turn =>
      rcases turned_after sound with ⟨unseen, -⟩ | ⟨box, turned, next⟩
      · rw [unseen] at handed
        contradiction
      · rw [next]
        rw [handed] at turned
        cases turned with
        | handedOver torn uncancelled queue slot cancels => exact ⟨rfl, torn, uncancelled, slot⟩
  | push who message' =>
      rcases w.push_deed? who message' with unseen | accepted
      · simp [unseen] at handed
      · simp [accepted] at handed
  | _ => contradiction

/-- Nothing else enters the slot. -/
theorem slot_suffix (sound : w.box.Sound)
    (kept : ∀ message, w.deed? event ≠ some (.handedOver message)) :
    (w.after event).box.slot.items <:+ w.box.slot.items := by
  cases event with
  | turn =>
      rcases turned_after sound with ⟨-, same⟩ | ⟨box, turned, next⟩
      · simp [same]
      · rw [next]
        generalize seen : w.deed? .turn = deed at turned
        cases turned with
        | handedOver torn uncancelled queue slot cancels => exact absurd seen (kept _)
        | retracted torn front queue slot cancels => simp [slot]
        | rested torn uncancelled queue slot cancels => simp [slot]
        | gaveUp forced => exact List.suffix_rfl
  | push who message =>
      obtain ⟨incoming, next, -⟩ := w.push_after who message
      simp [next]
  | take most => exact List.drop_suffix most w.box.slot.items
  | dropReceiver => exact List.nil_suffix
  | _ => exact List.suffix_rfl

/-- A cancellation that waits is taken up before anything else. -/
theorem deed?_of_cancelled (sound : w.box.Sound) {ref : BlockRef} {waiting : List BlockRef}
    (running : w.box.hasStopped = false) (torn : w.tornDown = false)
    (front : w.box.cancels.items = ref :: waiting) :
    w.deed? .turn = some (.retracted ref) ∧ ((w.after .turn).box.hasStopped = false →
      (w.after .turn).box.cancels.items = waiting) := by
  have seen : w.deed? .turn = some (.retracted ref) := by
    simp [deed?, turnDeed?, retraction?, running, torn, front]
  refine ⟨seen, ?_⟩
  rcases turned_after sound with ⟨unseen, -⟩ | ⟨box, turned, next⟩
  · rw [unseen] at seen
    contradiction
  · rw [next]
    rw [seen] at turned
    cases turned with
    | retracted _ front' queue slot cancels =>
        obtain ⟨-, rfl⟩ := List.cons.inj (front.symm.trans front')
        exact cancels

/-! ### Cancellations go first -/

/-- Cancellations are taken up in the order in which they wait. -/
theorem cancels_prefix_after (sound : w.box.Sound) (event : Event)
    (running : (w.after event).box.hasStopped = false) :
    w.box.cancels.items <+:
      ((w.deed? event).toList.filterMap Deed.retracted?) ++ (w.after event).box.cancels.items := by
  cases event with
  | turn =>
      rcases turned_after sound with ⟨unseen, same⟩ | ⟨box, turned, next⟩
      · rw [unseen, same]
        exact List.prefix_rfl
      · rw [next] at running ⊢
        generalize w.deed? .turn = deed at turned
        cases turned with
        | retracted torn front queue slot cancels =>
            rw [front, cancels running]
            exact List.prefix_rfl
        | handedOver torn uncancelled queue slot cancels => simp [uncancelled]
        | rested torn uncancelled queue slot cancels => simp [uncancelled]
        | gaveUp forced => contradiction
  | cancel who ref =>
      simp only [deed?, after, Option.toList_none, List.filterMap_nil, List.nil_append,
        Mailbox.items_put]
      exact List.prefix_append _ _
  | push who message =>
      obtain ⟨incoming, next, -⟩ := w.push_after who message
      rw [next]
      rcases w.push_deed? who message with unseen | accepted
      · rw [unseen]
        exact List.prefix_rfl
      · rw [accepted]
        exact List.prefix_rfl
  | _ => exact List.prefix_rfl

theorem cancels_prefix_run (sound : w.box.Sound) (later : List Event)
    (running : (w.run later).box.hasStopped = false) :
    w.box.cancels.items <+:
      (w.deeds later).filterMap Deed.retracted? ++ (w.run later).box.cancels.items := by
  induction later using List.reverseRecOn with
  | nil => simp [deeds]
  | append_singleton past event ih =>
      rw [run_concat] at running ⊢
      have step := cancels_prefix_after (sound_run sound past) event running
      rw [deeds_concat, List.filterMap_append, List.append_assoc]
      exact (ih (hasStopped_after running)).trans ((List.prefix_append_right_inj _).mpr step)

/-- Before a message is handed over, every cancellation that waited is taken up. -/
theorem cancels_before_handOver (sound : w.box.Sound) {later : List Event} {event : Event}
    {message : Message} (handed : (w.run later).deed? event = some (.handedOver message)) :
    w.box.cancels.items <+: (w.deeds later).filterMap Deed.retracted? := by
  have still := sound_run sound later
  obtain ⟨-, -, uncancelled, -⟩ := of_handedOver still handed
  have running : (w.run later).box.hasStopped = false := by
    by_contra stopped
    rw [deed?_of_stopped still (by simpa using stopped)] at handed
    contradiction
  simpa [uncancelled] using cancels_prefix_run sound later running

/-- A deed of a history is the deed of one of its events. -/
theorem deeds_eq_append_cons {history : List Event} {before rest : List Deed} {deed : Deed}
    (split : w.deeds history = before ++ deed :: rest) :
    ∃ early event later, history = early ++ event :: later ∧ w.deeds early = before ∧
      (w.run early).deed? event = some deed := by
  induction history generalizing w before with
  | nil => simp [deeds] at split
  | cons event later ih =>
      cases seen : w.deed? event with
      | none =>
          have tail : (w.after event).deeds later = before ++ deed :: rest := by
            simpa [deeds, seen] using split
          obtain ⟨early, event', later', rfl, same, handed⟩ := ih tail
          exact ⟨event :: early, event', later', rfl, by simp [deeds, seen, same], handed⟩
      | some first =>
          have tail : first :: (w.after event).deeds later = before ++ deed :: rest := by
            simpa [deeds, seen] using split
          cases before with
          | nil =>
              obtain ⟨rfl, -⟩ := List.cons.inj tail
              exact ⟨[], event, later, rfl, rfl, seen⟩
          | cons head before =>
              obtain ⟨rfl, behind⟩ := List.cons.inj tail
              obtain ⟨early, event', later', rfl, same, handed⟩ := ih behind
              exact ⟨event :: early, event', later', rfl, by simp [deeds, seen, same], handed⟩

/-! ### The ledger of a run -/

section Books

variable (w) (past later : List Event)

theorem ledger_append : w.ledger (past ++ later) =
    ((w.run past).deeds later).foldl Ledger.record (w.ledger past) := by
  rw [ledger, deeds_append, List.foldl_append]
  rfl

theorem ledger_concat (event : Event) : w.ledger (past ++ [event]) =
    ((w.run past).deed? event).toList.foldl Ledger.record (w.ledger past) := by
  rw [ledger_append, deeds, deeds, List.append_nil]

/-- The ledger after a history that starts with an empty queue. -/
structure Kept : Prop where
  inOrder : (w.ledger past).InOrder
  queued : (w.run past).box.hasStopped = false →
    (w.ledger past).withFate .queued = (w.run past).box.queue
  handedOver : (w.ledger past).withFate .handedOver = (w.deeds past).filterMap Deed.handedOver?

end Books

end World

theorem OneList.eq_of_none {queue queue' : List Message} (acts : OneList none queue queue') :
    queue' = queue := by
  cases acts with
  | unchanged => rfl

/-- A deed that acts on the queue is entered as it acts. -/
theorem OneList.record {ledger : Ledger} {deed : Deed} {queue queue' : List Message}
    (acts : OneList (some deed) queue queue') (inOrder : ledger.InOrder)
    (queued : ledger.withFate .queued = queue) :
    (ledger.record deed).InOrder ∧ (ledger.record deed).withFate .queued = queue' ∧
      (ledger.record deed).withFate .handedOver =
        ledger.withFate .handedOver ++ deed.handedOver?.toList := by
  cases acts with
  | accepted message =>
      refine ⟨inOrder.enter _, ?_, ?_⟩
      · rw [Ledger.record, Ledger.queued_enter, queued]
      · rw [Ledger.record, Ledger.handed_enter]
        exact (List.append_nil _).symm
  | retracted ref =>
      refine ⟨inOrder.strike ref, ?_, ?_⟩
      · rw [Ledger.record, Ledger.queued_strike, queued]
      · rw [Ledger.record, Ledger.handed_strike]
        exact (List.append_nil _).symm
  | handedOver message =>
      exact ⟨inOrder.handOver, Ledger.queued_handOver queued,
        Ledger.handed_handOver inOrder queued⟩

namespace World

variable {w : World}

/-- What is queued and what was handed over stands in the ledger. -/
theorem kept (sound : w.box.Sound) (empty : w.box.queue = []) (history : List Event) :
    w.Kept history := by
  induction history using List.reverseRecOn with
  | nil => exact ⟨List.Pairwise.nil, fun _ => empty.symm, rfl⟩
  | append_singleton past event ih =>
      have still := sound_run sound past
      obtain ⟨inOrder, queued, handedOver⟩ := ih
      have acts := oneList_after still event
      cases deed : (w.run past).deed? event with
      | none =>
          have same : (w.run (past ++ [event])).box.hasStopped = false →
              (w.run (past ++ [event])).box.queue = (w.run past).box.queue := by
            intro running
            rw [run_concat] at running ⊢
            rcases acts with acts | ⟨-, -, -, next⟩
            · rw [deed] at acts
              exact acts.eq_of_none
            · rw [next] at running
              contradiction
          refine ⟨?_, ?_, ?_⟩
          · rw [ledger_concat, deed]
            exact inOrder
          · intro running
            rw [ledger_concat, deed, same running]
            exact queued (hasStopped_after (by rwa [run_concat] at running))
          · rw [ledger_concat, deeds_concat, deed]
            simpa using handedOver
      | some deed' =>
          have running : (w.run past).box.hasStopped = false := by
            by_contra stopped
            rw [deed?_of_stopped still (by simpa using stopped)] at deed
            contradiction
          rcases acts with acts | ⟨-, -, unseen, -⟩
          · rw [deed] at acts
            obtain ⟨inOrder', queued', handed'⟩ := acts.record inOrder (queued running)
            refine ⟨?_, ?_, ?_⟩
            · rw [ledger_concat, deed]
              exact inOrder'
            · intro _
              rw [ledger_concat, deed, run_concat]
              exact queued'
            · rw [ledger_concat, deeds_concat, deed, List.filterMap_append, ← handedOver]
              exact handed'
          · rw [unseen] at deed
            contradiction

theorem tornDown_run (w : World) {past : List Event} (torn : .tearDown ∈ past) :
    (w.run past).tornDown = true := by
  induction past using List.reverseRecOn with
  | nil => contradiction
  | append_singleton past event ih =>
      rw [run_concat]
      rcases List.mem_append.mp torn with before | now
      · have already := ih before
        cases event with
        | push who message =>
            obtain ⟨incoming, next, -⟩ := (w.run past).push_after who message
            rw [next]
            exact already
        | tearDown => rfl
        | _ => exact already
      · obtain rfl := List.mem_singleton.mp now
        rfl

/-- The write queue acts as a single list, in every run and for channels of any capacity.

What is accepted joins the queue at its end; a cancellation that is taken up erases the
first block that it names, wherever that stands; a hand-over takes the head of the queue
and puts it into the slot; nothing else changes the queue, up to the step with which the
task gives up. The ledger tells what became of every message. Once a cancellation
is accepted, it is taken up, and with it all that were accepted before, before another
message is handed over, so the first block that it names is never handed over. After the
teardown nothing is. -/
theorem acts_as_one_list (incoming cancels slot : Nat) (past : List Event) :
    let w := (start incoming cancels slot).run past
    let ledger := (start incoming cancels slot).ledger
    (∀ event, OneList (w.deed? event) w.box.queue (w.after event).box.queue ∨ w.GivesUp event) ∧
      (∀ who message, w.box.hasSenders = true →
        (w.box.incoming.put who message).1 = .accepted →
        w.deed? (.push who message) = some (.accepted message)) ∧
      (∀ ref waiting, w.box.hasStopped = false → w.tornDown = false →
        w.box.cancels.items = ref :: waiting →
        w.deed? .turn = some (.retracted ref) ∧ ((w.after .turn).box.hasStopped = false →
          (w.after .turn).box.cancels.items = waiting)) ∧
      (∀ event message, w.deed? event = some (.handedOver message) →
        event = .turn ∧ (w.after event).box.slot = w.box.slot.push message) ∧
      (∀ event, (∀ message, w.deed? event ≠ some (.handedOver message)) →
        (w.after event).box.slot.items <:+ w.box.slot.items) ∧
      ((w.box.hasStopped = false → (ledger past).withFate .queued = w.box.queue) ∧
        (ledger past).withFate .handedOver =
          ((start incoming cancels slot).deeds past).filterMap Deed.handedOver?) ∧
      (∀ who ref, (w.box.cancels.put who ref).1 = .accepted →
        (∀ later event message,
          ((w.after (.cancel who ref)).run later).deed? event = some (.handedOver message) →
          w.box.cancels.items ++ [ref] <+:
            ((w.after (.cancel who ref)).deeds later).filterMap Deed.retracted?) ∧
        ∀ (place : Nat) (message : Message),
          (ledger past)[place]? = some (⟨message, .queued⟩ : Entry) →
          isRetractedBy ref message = true →
          ∃ first : Nat, first ≤ place ∧ ∃ struck,
            (ledger past)[first]? = some (⟨struck, .queued⟩ : Entry) ∧
            isRetractedBy ref struck = true ∧
            ∀ later, ∃ fate, fate ≠ Fate.handedOver ∧
              (ledger (past ++ .cancel who ref :: later))[first]? =
                some (⟨struck, fate⟩ : Entry)) ∧
      (.tearDown ∈ past → ∀ event message, w.deed? event ≠ some (.handedOver message)) := by
  intro w ledger
  have sound : w.box.Sound := sound_run (sound_start incoming cancels slot) past
  obtain ⟨-, queued, handedOver⟩ := kept (sound_start incoming cancels slot) rfl past
  refine ⟨oneList_after sound, ?_, ?_, ?_, ?_, ⟨queued, handedOver⟩, ?_, ?_⟩
  · intro who message senders accepted
    simp [deed?, senders, accepted]
  · intro ref waiting running torn front
    exact deed?_of_cancelled sound running torn front
  · intro event message handed
    obtain ⟨turn, -, -, slot⟩ := of_handedOver sound handed
    exact ⟨turn, slot⟩
  · intro event keeps
    exact slot_suffix sound keeps
  · intro who ref accepted
    have waits : (w.after (.cancel who ref)).box.cancels.items = w.box.cancels.items ++ [ref] := by
      simp [after, Mailbox.items_put, accepted]
    have first : ∀ later event message,
        ((w.after (.cancel who ref)).run later).deed? event = some (.handedOver message) →
        w.box.cancels.items ++ [ref] <+:
          ((w.after (.cancel who ref)).deeds later).filterMap Deed.retracted? := by
      intro later event message handed
      rw [← waits]
      exact cancels_before_handOver (sound_after sound _) handed
    refine ⟨first, ?_⟩
    intro place message inside hit
    obtain ⟨earliest, least, struck, awaits⟩ := Ledger.awaits_of_queued inside hit
    refine ⟨earliest, least, struck, awaits.here, awaits.hit, ?_⟩
    intro later
    have next : ledger (past ++ .cancel who ref :: later) =
        ((w.after (.cancel who ref)).deeds later).foldl Ledger.record (ledger past) :=
      ledger_append _ past (.cancel who ref :: later)
    rw [next]
    refine awaits.spared _ ?_
    intro before rest sent split
    obtain ⟨early, event, tail, rfl, rfl, handed⟩ := deeds_eq_append_cons split
    have taken := (first early event sent handed).subset (by simp : ref ∈ _ ++ [ref])
    obtain ⟨deed, inside, names⟩ := List.mem_filterMap.mp taken
    cases deed with
    | retracted ref' =>
        cases names
        exact inside
    | _ => contradiction
  · intro torn event message handed
    obtain ⟨-, untorn, -⟩ := of_handedOver sound handed
    rw [tornDown_run _ torn] at untorn
    contradiction

end World

end Outbox

end PeerWire

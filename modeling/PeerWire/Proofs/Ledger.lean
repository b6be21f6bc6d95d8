import PeerWire.Proofs.Outbox

/-!
The ledger of a write queue: every message that was ever accepted, in the order of
acceptance, each with what has become of it. It is kept beside the queue and never read
by it, so that what is written can be compared with what was accepted, and so that a
block that was retracted keeps the place it would have had.
-/

namespace PeerWire

/-- What has become of a message that was accepted. -/
inductive Fate where
  | queued
  | handedOver
  | retracted
deriving DecidableEq, Repr, Inhabited

/-- A message that was accepted. -/
structure Entry where
  message : Message
  fate : Fate := .queued
deriving DecidableEq, Repr, Inhabited

/-- Everything accepted so far, oldest first. -/
abbrev Ledger := List Entry

namespace Ledger

/-- All messages, whatever became of them. -/
def messages (ledger : Ledger) : List Message :=
  ledger.map (·.message)

/-- The messages of one fate. -/
def withFate (ledger : Ledger) (fate : Fate) : List Message :=
  (ledger.filter (·.fate = fate)).map (·.message)

/-- The messages that were not retracted. -/
def survivors (ledger : Ledger) : List Message :=
  (ledger.filter (·.fate ≠ .retracted)).map (·.message)

/-- Messages are accepted. -/
def enter (ledger : Ledger) (messages : List Message) : Ledger :=
  ledger ++ messages.map ({ message := · })

/-- The oldest queued message that `found` accepts meets its fate. -/
def settle (found : Message → Bool) (fate : Fate) : Ledger → Ledger
  | [] => []
  | entry :: later =>
      if entry.fate = .queued ∧ found entry.message then { entry with fate } :: later
      else entry :: settle found fate later

/-- A cancellation is taken up. -/
def strike (ledger : Ledger) (ref : BlockRef) : Ledger :=
  ledger.settle (Outbox.isRetractedBy ref) .retracted

/-- The oldest message is handed to the writer. -/
def handOver (ledger : Ledger) : Ledger :=
  ledger.settle (fun _ => true) .handedOver

/-- No message has overtaken one that is still queued. -/
def InOrder (ledger : Ledger) : Prop :=
  ledger.Pairwise fun earlier later => earlier.fate = .queued → later.fate ≠ .handedOver

section Cons

variable (entry : Entry) (later : Ledger) (fate : Fate)

theorem withFate_cons : withFate (entry :: later) fate =
    if entry.fate = fate then entry.message :: later.withFate fate
    else later.withFate fate := by
  unfold withFate
  split <;> simp [*]

theorem survivors_cons : survivors (entry :: later) =
    if entry.fate = .retracted then later.survivors
    else entry.message :: later.survivors := by
  unfold survivors
  split <;> simp [*]

variable {later fate} in
theorem withFate_eq_nil (other : ∀ entry ∈ later, entry.fate ≠ fate) :
    withFate later fate = [] := by
  unfold withFate
  rw [List.filter_eq_nil_iff.mpr fun entry inside => by simpa using other entry inside]
  rfl

end Cons

/-! ### Acceptance -/

section Enter

variable (ledger : Ledger) (more : List Message)

theorem messages_enter : (ledger.enter more).messages = ledger.messages ++ more := by
  simp [messages, enter, Function.comp_def]

theorem queued_enter :
    (ledger.enter more).withFate .queued = ledger.withFate .queued ++ more := by
  simp [withFate, enter, List.filter_map, Function.comp_def]

theorem handed_enter :
    (ledger.enter more).withFate .handedOver = ledger.withFate .handedOver := by
  simp [withFate, enter, List.filter_map, Function.comp_def]

variable {ledger} in
theorem InOrder.enter (inOrder : ledger.InOrder) (more : List Message) :
    (ledger.enter more).InOrder := by
  refine List.pairwise_append.mpr ⟨inOrder, ?_, ?_⟩
  · exact List.pairwise_map.mpr (List.pairwise_of_forall fun _ _ _ => nofun)
  · intro earlier _ later new _
    obtain ⟨message, _, rfl⟩ := List.mem_map.mp new
    exact nofun

end Enter

/-! ### Fates -/

section Settle

variable (found : Message → Bool) (fate : Fate) (ledger : Ledger)

theorem messages_settle : (ledger.settle found fate).messages = ledger.messages := by
  induction ledger with
  | nil => rfl
  | cons entry later ih =>
      unfold settle
      unfold messages at *
      split
      · rfl
      · simp only [List.map_cons, ih]

variable {fate} in
theorem queued_settle (settled : fate ≠ .queued) :
    (ledger.settle found fate).withFate .queued =
      (ledger.withFate .queued).eraseP found := by
  induction ledger with
  | nil => rfl
  | cons entry later ih =>
      unfold settle
      by_cases queued : entry.fate = .queued
      · by_cases hit : found entry.message = true
        · simp [withFate_cons, queued, hit, settled]
        · simp [withFate_cons, queued, hit, ih]
      · simp [withFate_cons, queued, ih]

variable {fate} in
theorem handed_settle (settled : fate ≠ .handedOver) :
    (ledger.settle found fate).withFate .handedOver = ledger.withFate .handedOver := by
  induction ledger with
  | nil => rfl
  | cons entry later ih =>
      unfold settle
      split
      · rename_i hit
        simp [withFate_cons, hit.1, settled]
      · simp [withFate_cons, ih]

/-- A message that meets its fate leaves nothing queued that was not queued before. -/
theorem fate_of_mem_settle {entry : Entry} (inside : entry ∈ ledger.settle found fate) :
    entry ∈ ledger ∨ entry.fate = fate := by
  induction ledger with
  | nil => exact .inl inside
  | cons first later ih =>
      unfold settle at inside
      split at inside
      · rcases List.mem_cons.mp inside with rfl | old
        · exact .inr rfl
        · exact .inl (List.mem_cons_of_mem _ old)
      · rcases List.mem_cons.mp inside with rfl | old
        · exact .inl List.mem_cons_self
        · exact (ih old).imp (List.mem_cons_of_mem _) id

end Settle

/-! ### Places -/

section Places

variable {ledger : Ledger} {place : Nat} {entry : Entry} {found : Message → Bool} {fate : Fate}

/-- Whoever comes later does not change the place of those before. -/
theorem getElem?_enter (here : ledger[place]? = some entry) (more : List Message) :
    (ledger.enter more)[place]? = some entry := by
  rw [enter, List.getElem?_append_left (List.getElem?_eq_some_iff.mp here).1, here]

/-- No place changes but the one where a queued message meets its fate. -/
theorem getElem?_settle_cases (found : Message → Bool) (fate : Fate) (ledger : Ledger)
    (place : Nat) : (ledger.settle found fate)[place]? = ledger[place]? ∨
      ∃ entry, ledger[place]? = some entry ∧ entry.fate = .queued ∧
        (ledger.settle found fate)[place]? = some { entry with fate } := by
  induction ledger generalizing place with
  | nil => exact .inl rfl
  | cons first later ih =>
      unfold settle
      split
      · rename_i hit
        cases place with
        | zero => exact .inr ⟨first, rfl, hit.1, rfl⟩
        | succ place => exact .inl rfl
      · cases place with
        | zero => exact .inl rfl
        | succ place => exact ih place

/-- A message that is not looked for keeps its fate. -/
theorem getElem?_settle (here : ledger[place]? = some entry)
    (missed : ¬ (entry.fate = .queued ∧ found entry.message = true)) :
    (ledger.settle found fate)[place]? = some entry := by
  induction ledger generalizing place with
  | nil => contradiction
  | cons first later ih =>
      unfold settle
      cases place with
      | zero =>
          obtain rfl : first = entry := by simpa using here
          rw [if_neg missed, List.getElem?_cons_zero]
      | succ place =>
          split
          · exact here
          · exact ih here

/-- The first queued message that is looked for meets its fate. -/
theorem getElem?_settle_first (here : ledger[place]? = some entry) (queued : entry.fate = .queued)
    (hit : found entry.message = true)
    (first : ∀ earlier < place, ∀ entry, ledger[earlier]? = some entry → entry.fate = .queued →
      found entry.message = false) :
    (ledger.settle found fate)[place]? = some { entry with fate } := by
  induction ledger generalizing place with
  | nil => contradiction
  | cons front later ih =>
      unfold settle
      cases place with
      | zero =>
          obtain rfl : front = entry := by simpa using here
          rw [if_pos ⟨queued, hit⟩, List.getElem?_cons_zero]
      | succ place =>
          rw [if_neg]
          · refine ih here ?_
            intro earlier before entry inside
            exact first (earlier + 1) (Nat.succ_lt_succ before) entry inside
          · rintro ⟨waits, struck⟩
            rw [first 0 place.succ_pos front rfl waits] at struck
            contradiction

/-- What is queued after a message has met its fate was so before. -/
theorem getElem?_of_settle (settled : fate ≠ .queued)
    (inside : (ledger.settle found fate)[place]? = some entry) (queued : entry.fate = .queued) :
    ledger[place]? = some entry := by
  induction ledger generalizing place with
  | nil => contradiction
  | cons first later ih =>
      unfold settle at inside
      cases place with
      | zero =>
          split at inside
          · obtain rfl : { first with fate } = entry := by simpa using inside
            exact absurd queued settled
          · exact inside
      | succ place =>
          split at inside
          · exact inside
          · exact ih inside

end Places

theorem InOrder.strike {ledger : Ledger} (inOrder : ledger.InOrder) (ref : BlockRef) :
    (ledger.strike ref).InOrder := by
  unfold Ledger.strike
  induction ledger with
  | nil => exact inOrder
  | cons first later ih =>
      obtain ⟨ahead, rest⟩ := List.pairwise_cons.mp inOrder
      unfold settle
      split
      · exact List.pairwise_cons.mpr ⟨fun _ _ => nofun, rest⟩
      · refine List.pairwise_cons.mpr ⟨?_, ih rest⟩
        intro entry inside waiting
        rcases fate_of_mem_settle _ _ _ inside with old | struck
        · exact ahead entry old waiting
        · rw [struck]
          exact nofun

theorem InOrder.handOver {ledger : Ledger} (inOrder : ledger.InOrder) :
    ledger.handOver.InOrder := by
  unfold Ledger.handOver
  induction ledger with
  | nil => exact inOrder
  | cons first later ih =>
      obtain ⟨ahead, rest⟩ := List.pairwise_cons.mp inOrder
      unfold settle
      split
      · exact List.pairwise_cons.mpr ⟨fun _ _ => nofun, rest⟩
      · rename_i settled
        exact List.pairwise_cons.mpr
          ⟨fun _ _ waiting => absurd ⟨waiting, rfl⟩ settled, ih rest⟩

section Moves

variable (ledger : Ledger)

theorem queued_strike (ref : BlockRef) : (ledger.strike ref).withFate .queued =
    (ledger.withFate .queued).eraseP (Outbox.isRetractedBy ref) :=
  queued_settle _ _ (by decide)

theorem handed_strike (ref : BlockRef) :
    (ledger.strike ref).withFate .handedOver = ledger.withFate .handedOver :=
  handed_settle _ _ (by decide)

theorem messages_strike (ref : BlockRef) : (ledger.strike ref).messages = ledger.messages :=
  messages_settle _ _ _

theorem messages_handOver : ledger.handOver.messages = ledger.messages :=
  messages_settle _ _ _

variable {ledger} in
theorem queued_handOver {message : Message} {waiting : List Message}
    (oldest : ledger.withFate .queued = message :: waiting) :
    ledger.handOver.withFate .queued = waiting := by
  have erased := queued_settle (fun _ => true) ledger (by decide : Fate.handedOver ≠ .queued)
  rw [oldest, List.eraseP_cons_of_pos rfl] at erased
  exact erased

end Moves

/-- What is handed over is the oldest message that still waits. -/
theorem handed_handOver {ledger : Ledger} (inOrder : ledger.InOrder) {message : Message}
    {waiting : List Message} (oldest : ledger.withFate .queued = message :: waiting) :
    ledger.handOver.withFate .handedOver = ledger.withFate .handedOver ++ [message] := by
  unfold Ledger.handOver
  induction ledger with
  | nil => contradiction
  | cons first later ih =>
      obtain ⟨ahead, rest⟩ := List.pairwise_cons.mp inOrder
      unfold settle
      by_cases queued : first.fate = .queued
      · have none : withFate later .handedOver = [] :=
          withFate_eq_nil fun entry inside => ahead entry inside queued
        have front : first.message = message := by
          rw [withFate_cons, if_pos queued] at oldest
          exact (List.cons.inj oldest).1
        simp [withFate_cons, queued, none, front]
      · have tail := ih rest (by rwa [withFate_cons, if_neg queued] at oldest)
        by_cases handed : first.fate = .handedOver
        · simp [withFate_cons, handed, tail]
        · simp [withFate_cons, queued, handed, tail]

/-- Without overtaking, the survivors are what was handed over and then what waits. -/
theorem survivors_eq {ledger : Ledger} (inOrder : ledger.InOrder) :
    ledger.survivors = ledger.withFate .handedOver ++ ledger.withFate .queued := by
  induction ledger with
  | nil => rfl
  | cons first later ih =>
      obtain ⟨ahead, rest⟩ := List.pairwise_cons.mp inOrder
      have tail := ih rest
      cases fate : first.fate with
      | queued =>
          have none : withFate later .handedOver = [] :=
            withFate_eq_nil fun entry inside => ahead entry inside fate
          simp [survivors_cons, withFate_cons, fate, tail, none]
      | handedOver => simp [survivors_cons, withFate_cons, fate, tail]
      | retracted => simp [survivors_cons, withFate_cons, fate, tail]

/-! ### Beside a write queue -/

/-- The ledger after a step from one state of the queue to the next. -/
def follow (ledger : Ledger) (retraction : Option BlockRef) (before after : Outbox) : Ledger :=
  let entered := ledger.enter (before.incoming.gained after.incoming)
  match retraction with
  | some ref => entered.strike ref
  | none => if (before.slot.gained after.slot).isEmpty then entered else entered.handOver

theorem follow_unmoved (ledger : Ledger) {before after : Outbox}
    (incoming : before.incoming.gained after.incoming = [])
    (slot : before.slot.gained after.slot = []) : ledger.follow none before after = ledger := by
  simp [follow, incoming, slot, enter]

end Ledger

/-- The cancellation that the queue's task takes up in its next step. -/
def Outbox.retraction? (box : Outbox) (tornDown : Bool) : Option BlockRef :=
  if box.hasStopped || tornDown then none else box.cancels.items.head?

/-- The ledger agrees with the queue, and with what the writer has taken out of it. -/
structure Books (ledger : Ledger) (taken : List Message) (box : Outbox) : Prop where
  inOrder : ledger.InOrder
  queue : box.hasStopped = false → ledger.withFate .queued = box.queue
  handed : taken ++ box.slot.items <+: ledger.withFate .handedOver
  slot : box.slot.isOpen = true → ledger.withFate .handedOver = taken ++ box.slot.items

namespace Books

variable {ledger : Ledger} {taken : List Message} {box after : Outbox}

/-- The writer takes the message out of the slot. -/
theorem take (books : Books ledger taken box) {message : Message} {later : List Message}
    (front : box.slot.items = message :: later) :
    Books ledger (taken ++ [message]) { box with slot := (box.slot.take 1).2 } where
  inOrder := books.inOrder
  queue := books.queue
  handed := by simpa [front] using books.handed
  slot open_ := by simpa [front] using books.slot open_

/-- The writer is gone, and what stood in the slot with it. -/
theorem close (books : Books ledger taken box) :
    Books ledger taken { box with slot := box.slot.close } where
  inOrder := books.inOrder
  queue := books.queue
  handed := by
    rw [Mailbox.items_close, List.append_nil]
    exact (List.prefix_append _ _).trans books.handed
  slot := nofun

/-- Messages arrive, and the queue does nothing. -/
theorem arrive (books : Books ledger taken box)
    (entered : box.incoming.items <+: after.incoming.items)
    (others : after = { box with incoming := after.incoming, cancels := after.cancels }) :
    Books (ledger.follow none box after) taken after := by
  have grown := box.incoming.items_of_prefix entered
  have slot : after.slot = box.slot := by rw [others]
  have pending : after.pending = box.pending := by rw [others]
  have stopped : after.hasStopped = box.hasStopped := by rw [others]
  have followed : ledger.follow none box after =
      ledger.enter (box.incoming.gained after.incoming) := by
    simp [Ledger.follow, slot]
  rw [followed]
  refine ⟨books.inOrder.enter _, fun running => ?_, ?_, ?_⟩
  · rw [Ledger.queued_enter, books.queue (stopped ▸ running), Outbox.queue, Outbox.queue, grown,
      pending, List.append_assoc]
  · rw [Ledger.handed_enter, slot]
    exact books.handed
  · rw [Ledger.handed_enter, slot]
    exact books.slot

/-- The queue's task stops, and leaves what is queued where it is. -/
theorem stop (books : Books ledger taken box) : Books ledger taken box.stop :=
  ⟨books.inOrder, nofun, books.handed, books.slot⟩

/-- Nothing is retracted or handed over, and the queue is what it was. -/
theorem rest (books : Books ledger taken box) (queue : after.queue = box.queue)
    (slot : after.slot = box.slot) (stopped : after.hasStopped = box.hasStopped) :
    Books ledger taken after where
  inOrder := books.inOrder
  queue running := by rw [queue, books.queue (stopped ▸ running)]
  handed := by rw [slot]; exact books.handed
  slot := by rw [slot]; exact books.slot

theorem strike (books : Books ledger taken box) {ref : BlockRef}
    (queue : after.queue = box.queue.eraseP (Outbox.isRetractedBy ref))
    (slot : after.slot = box.slot) (stopped : after.hasStopped = box.hasStopped) :
    Books (ledger.strike ref) taken after where
  inOrder := books.inOrder.strike ref
  queue running := by rw [queue, Ledger.queued_strike, books.queue (stopped ▸ running)]
  handed := by rw [slot, Ledger.handed_strike]; exact books.handed
  slot := by rw [slot, Ledger.handed_strike]; exact books.slot

theorem handOver (books : Books ledger taken box) {message : Message}
    (running : box.hasStopped = false) (queue : box.queue = message :: after.queue)
    (slot : after.slot = box.slot.push message) (open_ : box.slot.isOpen = true) :
    Books ledger.handOver taken after := by
  have oldest : ledger.withFate .queued = message :: after.queue :=
    (books.queue running).trans queue
  have handed : ledger.handOver.withFate .handedOver = taken ++ after.slot.items := by
    rw [Ledger.handed_handOver books.inOrder oldest, books.slot open_, slot,
      Mailbox.items_push, List.append_assoc]
  exact ⟨books.inOrder.handOver, fun _ => Ledger.queued_handOver oldest,
    handed ▸ List.prefix_rfl, fun _ => handed⟩

/-- A move of the queue's task. Until the connection is torn down the task takes in what
arrives, so that a cancellation finds every block that waits. -/
theorem move {tornDown : Bool} (books : Books ledger taken box) (running : box.hasStopped = false)
    (listening : tornDown = false → box.isListening = true)
    (move : box.OutboxMove tornDown after) :
    Books (ledger.follow (box.retraction? tornDown) box after) taken after := by
  have unentered : ledger.enter [] = ledger := by simp [Ledger.enter]
  have uncancelled : tornDown = false → box.cancels.items = [] →
      box.retraction? tornDown = none := by
    intro torn empty
    simp [Outbox.retraction?, torn, running, empty]
  cases move with
  | tear torn =>
      have none : box.retraction? tornDown = none := by simp [Outbox.retraction?, torn]
      simpa [none, Ledger.follow, Outbox.stop, unentered] using books.stop
  | @retract ref later torn front =>
      have taken_up : box.retraction? tornDown = some ref := by
        simp [Outbox.retraction?, torn, running, front]
      have open_ := listening torn
      have absorbed := (Outbox.OutboxMove.retract torn front).gained_incoming
      rw [taken_up, Ledger.follow, absorbed, unentered]
      refine books.strike (Outbox.queue_retract open_ ref) ?_ ?_ <;>
        simp [Outbox.retract, Outbox.absorb, open_]
  | takeIn torn empty open_ front =>
      rw [uncancelled torn empty]
      simpa [Ledger.follow, unentered] using books.rest (Outbox.queue_takeIn front) rfl rfl
  | deafen torn empty quiet senders =>
      rw [uncancelled torn empty]
      have deafened : Books ledger taken { box with isListening := false } :=
        books.rest rfl rfl rfl
      simpa [Ledger.follow, unentered] using deafened
  | strand torn empty gone =>
      rw [uncancelled torn empty]
      simpa [Ledger.follow, Outbox.stop, unentered] using books.stop
  | @handOver message later torn empty quiet front open_ room =>
      have gained : (box.slot.gained (box.slot.push message)).isEmpty = false := by
        rw [box.slot.gained_of_items (box.slot.items_push message)]
        rfl
      rw [uncancelled torn empty]
      simpa [Ledger.follow, gained, unentered] using
        books.handOver running (Outbox.queue_handOver front) rfl open_

/-- A task that has to wait takes up no cancellation. -/
theorem retraction?_of_waiting {tornDown : Bool} (waiting : box.turn tornDown = none) :
    box.retraction? tornDown = none := by
  by_cases running : box.hasStopped = false
  · have waits := Outbox.waits_of_turn running waiting
    simp [Outbox.retraction?, waits.uncancelled]
  · simp [Outbox.retraction?, running]

/-- A step of the queue's task. -/
theorem turn {tornDown : Bool} (books : Books ledger taken box)
    (listening : tornDown = false → box.isListening = true)
    (turn : box.turn tornDown = some after) :
    Books (ledger.follow (box.retraction? tornDown) box after) taken after := by
  obtain ⟨running, moved, move, settled⟩ := Outbox.outboxMove_of_turn turn
  have followed := books.move running listening move
  rcases settled with rfl | ⟨rfl, _, _⟩
  · exact followed
  · have unentered : box.incoming.gained moved.stop.incoming =
        box.incoming.gained moved.incoming := by
      rw [move.gained_incoming]
      exact Mailbox.gained_close _ _
    unfold Ledger.follow
    rw [unentered]
    exact followed.stop

end Books

end PeerWire

import PeerWire.Proofs.Outbox.Cancellations

/-!
When the task of the write queue ends, and what it leaves behind. It ends because the
connection is torn down, because the writer is gone, or because nobody is left who could
send and nothing is pending. In the last case it has handed over everything that was ever
accepted, in order, up to the blocks that were retracted: it learns that nobody is left
either when it finds nothing to take in or while it takes in all that has arrived for the
sake of a cancellation, and in both cases it goes on with what is pending.

The task cannot turn in circles. Every step uses up something of `Outbox.strength`, so it
comes to wait or to its end, and a task that waits has a reason for that as well.
-/

namespace PeerWire

namespace Outbox

/-- The message that was accepted. -/
def Deed.accepted? : Deed → Option Message
  | .accepted message => some message
  | _ => none

/-- How many steps the task has in it without new input. A message that has arrived takes one
step to be taken in and another to be handed over; one step is left to notice that nobody can
send, and one to end. -/
def strength (box : Outbox) : Nat :=
  box.pending.length + 2 * box.incoming.items.length + box.cancels.items.length +
    box.isListening.toNat + (!box.hasStopped).toNat

/-! ### Every step uses something up -/

section Strength

variable {box after : Outbox} {tornDown : Bool}

theorem strength_le_turnsLeft (box : Outbox) : box.strength ≤ box.turnsLeft := by
  have listening := box.isListening.toNat_le
  have running := (!box.hasStopped).toNat_le
  unfold strength turnsLeft
  omega

theorem strength_stop (running : box.hasStopped = false) : box.stop.strength < box.strength := by
  simp only [strength, stop, Mailbox.items_close, List.length_nil, running, Bool.not_false,
    Bool.not_true, Bool.toNat_true, Bool.toNat_false]
  omega

theorem strength_absorb_le (box : Outbox) : box.absorb.strength ≤ box.strength := by
  unfold absorb
  split
  · rename_i listening
    have flag := box.hasSenders.toNat_le
    simp only [strength, Mailbox.items_takeAll, List.length_append, List.length_nil, listening,
      Bool.toNat_true]
    omega
  · exact Nat.le_refl _

theorem strength_retract_le (box : Outbox) (ref : BlockRef) :
    (box.retract ref).strength ≤ box.strength := by
  have fewer := List.length_eraseP_le (p := isRetractedBy ref) (l := box.pending)
  simp only [strength, retract]
  omega

theorem strength_handOver (running : box.hasStopped = false) (step : box.handOver = some after) :
    after.strength < box.strength := by
  unfold handOver at step
  split at step
  · contradiction
  · rename_i message later front
    split_ifs at step with open_ room
    · obtain rfl := Option.some.inj step
      exact strength_stop running
    · obtain rfl := Option.some.inj step
      simp only [strength, front, List.length_cons]
      omega

theorem strength_select (running : box.hasStopped = false)
    (step : box.select tornDown = some after) : after.strength < box.strength := by
  unfold select at step
  split at step
  · obtain rfl := Option.some.inj step
    exact strength_stop running
  · split at step
    · rename_i ref later front
      obtain rfl := Option.some.inj step
      have spent : ({ box with cancels := (box.cancels.take 1).2 } : Outbox).strength <
          box.strength := by
        simp only [strength, Mailbox.items_take, front, List.drop_one, List.tail_cons,
          List.length_cons]
        omega
      exact Nat.lt_of_le_of_lt (strength_retract_le _ ref)
        (Nat.lt_of_le_of_lt (strength_absorb_le _) spent)
    · split at step
      · rename_i listening
        split at step
        · rename_i message later front
          obtain rfl := Option.some.inj step
          simp only [strength, Mailbox.items_take, front, List.drop_one, List.tail_cons,
            List.length_cons, List.length_append, List.length_nil]
          omega
        · split at step
          · exact strength_handOver running step
          · obtain rfl := Option.some.inj step
            simp only [strength, listening, Bool.toNat_true, Bool.toNat_false]
            omega
      · exact strength_handOver running step

theorem strength_settleEnd_le (box : Outbox) : box.settleEnd.strength ≤ box.strength := by
  unfold settleEnd
  split
  · rename_i ended
    simp only [Bool.and_eq_true, Bool.not_eq_true'] at ended
    exact Nat.le_of_lt (strength_stop ended.2)
  · exact Nat.le_refl _

theorem strength_turn (step : box.turn tornDown = some after) : after.strength < box.strength := by
  unfold turn at step
  split at step
  · contradiction
  · rename_i running
    obtain ⟨moved, selected, rfl⟩ := Option.map_eq_some_iff.mp step
    exact Nat.lt_of_le_of_lt (strength_settleEnd_le moved)
      (strength_select (by simpa using running) selected)

end Strength

/-! ### Why a task ends, and why it waits -/

section Reasons

variable {box after : Outbox} {tornDown : Bool}

/-- A task that is not to hear of more has something pending, or it has ended. -/
def Occupied (box : Outbox) : Prop :=
  box.hasStopped = false → box.isListening = false → box.pending ≠ []

theorem occupied_of_turn (step : box.turn tornDown = some after) : after.Occupied := by
  unfold turn at step
  split at step
  · contradiction
  · obtain ⟨moved, -, rfl⟩ := Option.map_eq_some_iff.mp step
    intro running deaf pending
    unfold settleEnd at running deaf pending
    split at running
    · contradiction
    · rename_i going
      rw [if_neg going] at deaf pending
      exact going (by simp [deaf, pending, running])

/-- A step puts into the slot what it hands over, and does nothing else to it. -/
theorem Turned.items_slot {deed : Option Deed} (turned : Turned box tornDown deed after) :
    after.slot.items = box.slot.items ++ deed.toList.filterMap Deed.handedOver? := by
  cases turned with
  | handedOver torn uncancelled queue slot cancels =>
      rw [slot]
      rfl
  | retracted torn front queue slot cancels =>
      rw [slot]
      exact (List.append_nil _).symm
  | rested torn uncancelled queue slot cancels =>
      rw [slot]
      exact (List.append_nil _).symm
  | gaveUp forced => exact (List.append_nil _).symm

theorem Turned.isOpen_slot {deed : Option Deed} (turned : Turned box tornDown deed after) :
    after.slot.isOpen = box.slot.isOpen := by
  cases turned with
  | handedOver torn uncancelled queue slot cancels =>
      rw [slot]
      exact Mailbox.isOpen_push _ _
  | retracted torn front queue slot cancels => exact congrArg Mailbox.isOpen slot
  | rested torn uncancelled queue slot cancels => exact congrArg Mailbox.isOpen slot
  | gaveUp forced => rfl

/-- The step with which the task ends. -/
theorem Sound.reason (sound : box.Sound) (step : box.turn tornDown = some after)
    (stopped : after.hasStopped = true) :
    tornDown = true ∨ box.slot.isOpen = false ∨
      box.hasSenders = false ∧ after.pending = [] := by
  obtain ⟨running, moved, move, settled⟩ := outboxMove_of_turn step
  obtain ⟨-, forced, deafened, -⟩ := move.flags running
  rcases settled with rfl | ⟨rfl, deaf, pending⟩
  · rcases forced stopped with torn | gone
    · exact .inl torn
    · exact .inr (.inl gone)
  · refine .inr (.inr ⟨?_, pending⟩)
    rcases deafened deaf with before | left
    · exact (sound.deaf before).1
    · exact left

/-- A task that waits with nothing queued waits for somebody who can still send. -/
theorem hasSenders_of_waiting (occupied : box.Occupied) (running : box.hasStopped = false)
    (waiting : box.turn tornDown = none) (empty : box.queue = []) : box.hasSenders = true := by
  have waits := waits_of_turn running waiting
  by_cases listening : box.isListening = true
  · exact (waits.quiet listening).2
  · have pending := occupied running (by simpa using listening)
    exact absurd (List.append_eq_nil_iff.mp empty).1 pending

end Reasons

namespace World

variable {w : World} {event : Event} {past : List Event}

/-! ### Runs -/

theorem occupied_start (incoming cancels slot : Nat) :
    (start incoming cancels slot).box.Occupied := fun _ => nofun

theorem occupied_after (occupied : w.box.Occupied) (event : Event) :
    (w.after event).box.Occupied := by
  cases event with
  | turn =>
      cases step : w.box.turn w.tornDown with
      | none => simpa [after, step] using occupied
      | some box => simpa [after, step] using occupied_of_turn step
  | push who message =>
      obtain ⟨incoming, next, -⟩ := w.push_after who message
      rw [next]
      exact occupied
  | _ => exact occupied

theorem occupied_run (occupied : w.box.Occupied) (history : List Event) :
    (w.run history).box.Occupied :=
  run_invariant (motive := fun w => w.box.Occupied) occupied occupied_after history

/-- Nothing but a step of its own ends the task. -/
theorem turn_of_ended (running : w.box.hasStopped = false)
    (stopped : (w.after event).box.hasStopped = true) :
    event = .turn ∧ ∃ box, w.box.turn w.tornDown = some box ∧ w.after event = { w with box } := by
  have idle : ¬ w.box.hasStopped = true := by simp [running]
  cases event with
  | turn =>
      cases step : w.box.turn w.tornDown with
      | none => exact absurd (by simpa [after, step] using stopped) idle
      | some box => exact ⟨rfl, box, rfl, by simp [after, step]⟩
  | push who message =>
      obtain ⟨incoming, next, -⟩ := w.push_after who message
      rw [next] at stopped
      exact absurd stopped idle
  | _ => exact absurd stopped idle

theorem hasStopped_run (stopped : w.box.hasStopped = true) (later : List Event) :
    (w.run later).box.hasStopped = true := by
  refine run_invariant (motive := fun w => w.box.hasStopped = true) stopped ?_ later
  intro w stopped event
  by_contra going
  have running := hasStopped_after (by simpa using going)
  rw [stopped] at running
  contradiction

/-- Once the task has ended, whoever wants to put a message in is turned away. -/
theorem turned_away (sound : w.box.Sound) (stopped : w.box.hasStopped = true) (who : Option Party)
    (message : Message) : (w.box.incoming.put who message).1 = .closed ∧
      w.deed? (.push who message) = none :=
  ⟨Mailbox.put_of_closed _ who message (sound.stopped stopped).1,
    deed?_of_stopped sound stopped _⟩

theorem run_turns_of_waiting (waiting : w.box.turn w.tornDown = none) (count : Nat) :
    w.run (List.replicate count .turn) = w := by
  have unmoved : w.after .turn = w := by simp [after, waiting]
  induction count with
  | zero => rfl
  | succ count ih =>
      rw [List.replicate_succ, run, List.foldl_cons, unmoved]
      exact ih

/-- After as many steps as it has in it, the task waits or has ended. -/
theorem waiting_after_turns {count : Nat} (enough : w.box.strength ≤ count) :
    (w.run (List.replicate count .turn)).box.turn
      (w.run (List.replicate count .turn)).tornDown = none := by
  induction count generalizing w with
  | zero =>
      cases step : w.box.turn w.tornDown with
      | none => exact step
      | some box => exact absurd (strength_turn step) (by omega)
  | succ count ih =>
      cases step : w.box.turn w.tornDown with
      | none => rwa [run_turns_of_waiting step]
      | some box =>
          have less : (w.after .turn).box.strength ≤ count := by
            have used := strength_turn step
            simp only [after, step, Option.getD_some]
            omega
          exact ih less

/-! ### What was handed over -/

/-- What the writer takes with an event. -/
def takes (w : World) : Event → List Message
  | .take most => (w.box.slot.take most).1
  | _ => []

/-- What the writer takes along a history. -/
def taken (w : World) : List Event → List Message
  | [] => []
  | event :: history => w.takes event ++ (w.after event).taken history

theorem taken_concat (w : World) (past : List Event) (event : Event) :
    w.taken (past ++ [event]) = w.taken past ++ (w.run past).takes event := by
  induction past generalizing w with
  | nil => exact List.append_nil _
  | cons first rest ih =>
      have run : w.run (first :: rest) = (w.after first).run rest := rfl
      rw [List.cons_append, taken, taken, ih, run, List.append_assoc]

/-- What is handed over enters the slot, and leaves it for the writer. -/
theorem slot_after (sound : w.box.Sound) (event : Event)
    (open_ : (w.after event).box.slot.isOpen = true) : w.box.slot.isOpen = true ∧
      w.takes event ++ (w.after event).box.slot.items =
        w.box.slot.items ++ (w.deed? event).toList.filterMap Deed.handedOver? := by
  cases event with
  | turn =>
      rcases turned_after sound with ⟨unseen, same⟩ | ⟨box, turned, next⟩
      · rw [same] at open_ ⊢
        rw [unseen]
        exact ⟨open_, (List.append_nil _).symm⟩
      · rw [next] at open_ ⊢
        exact ⟨turned.isOpen_slot ▸ open_, turned.items_slot⟩
  | push who message =>
      obtain ⟨incoming, next, -⟩ := w.push_after who message
      rw [next] at open_ ⊢
      rcases w.push_deed? who message with unseen | accepted
      · rw [unseen]
        exact ⟨open_, (List.append_nil _).symm⟩
      · rw [accepted]
        exact ⟨open_, (List.append_nil _).symm⟩
  | take most =>
      refine ⟨open_, ?_⟩
      simp [takes, after, deed?, Mailbox.take]
  | dropReceiver => contradiction
  | _ => exact ⟨open_, (List.append_nil _).symm⟩

/-- As long as the writer is there, what was handed over it has taken, or finds in the slot. -/
theorem taken_run (sound : w.box.Sound) (vacant : w.box.slot.items = []) (history : List Event)
    (open_ : (w.run history).box.slot.isOpen = true) :
    w.taken history ++ (w.run history).box.slot.items =
      (w.deeds history).filterMap Deed.handedOver? := by
  induction history using List.reverseRecOn with
  | nil => exact vacant
  | append_singleton past event ih =>
      rw [run_concat] at open_ ⊢
      obtain ⟨before, entered⟩ := slot_after (sound_run sound past) event open_
      rw [taken_concat, List.append_assoc, entered, ← List.append_assoc, ih before, deeds_concat,
        List.filterMap_append]

/-- The ledger has every message that was accepted, whatever became of it. -/
theorem messages_ledger (w : World) (history : List Event) :
    (w.ledger history).messages = (w.deeds history).filterMap Deed.accepted? := by
  have recorded : ∀ (deeds : List Deed) (ledger : Ledger),
      (deeds.foldl Ledger.record ledger).messages =
        ledger.messages ++ deeds.filterMap Deed.accepted? := by
    intro deeds
    induction deeds with
    | nil => simp
    | cons deed rest ih =>
        intro ledger
        rw [List.foldl_cons, ih]
        cases deed with
        | accepted message =>
            rw [Ledger.record, Ledger.messages_enter, List.append_assoc]
            rfl
        | retracted ref =>
            rw [Ledger.record, Ledger.messages_strike]
            rfl
        | handedOver message =>
            rw [Ledger.record, Ledger.messages_handOver]
            rfl
  exact recorded (w.deeds history) []

/-- What the deed of an event leaves queued is what the ledger has as queued. -/
theorem Kept.queued_concat (kept : w.Kept past) (running : (w.run past).box.hasStopped = false)
    {queue : List Message}
    (acts : OneList ((w.run past).deed? event) (w.run past).box.queue queue) :
    (w.ledger (past ++ [event])).withFate .queued = queue := by
  have before := kept.queued running
  rw [ledger_concat]
  cases deed : (w.run past).deed? event with
  | none =>
      rw [deed] at acts
      rw [acts.eq_of_none]
      exact before
  | some deed =>
      simp only [deed] at acts
      exact (acts.record kept.inOrder before).2.1

/-! ### The end -/

/-- Everything that was accepted along a history has been handed over, in order, but for what
a cancellation has struck that was accepted as well. -/
structure Drained (w : World) (history : List Event) : Prop where
  accepted : (w.ledger history).messages = (w.deeds history).filterMap Deed.accepted?
  handedOver : (w.deeds history).filterMap Deed.handedOver? = (w.ledger history).survivors
  received : w.taken history ++ (w.run history).box.slot.items = (w.ledger history).survivors
  retracted : ∀ (place : Nat) (message : Message),
    (w.ledger history)[place]? = some (⟨message, .retracted⟩ : Entry) →
    ∃ (number : Nat) (ref : BlockRef), (w.strikes history)[number]? = some (some place) ∧
      (w.cancellations history)[number]? = some ref ∧ isRetractedBy ref message = true

theorem drained (sound : w.box.Sound) (vacant : w.box.slot.items = []) (empty : w.box.queue = [])
    (uncancelled : w.box.cancels.items = []) {history : List Event}
    (open_ : (w.run history).box.slot.isOpen = true)
    (none : (w.ledger history).withFate .queued = []) : w.Drained history := by
  obtain ⟨inOrder, -, handedOver⟩ := kept sound empty history
  have survivors : (w.deeds history).filterMap Deed.handedOver? = (w.ledger history).survivors := by
    rw [Ledger.survivors_eq inOrder, none, List.append_nil, handedOver]
  refine ⟨messages_ledger w history, survivors, ?_, ?_⟩
  · rw [taken_run sound vacant history open_, survivors]
  · intro place message here
    obtain ⟨number, struck⟩ := (retracted_iff_struck here).mp rfl
    obtain ⟨ref, cancelled, hit⟩ := named_of_struck sound uncancelled here struck
    exact ⟨number, ref, struck, cancelled, hit⟩

/-- A task that ends while the connection stands and the writer is there leaves nothing. -/
theorem drained_of_ended (sound : w.box.Sound) (vacant : w.box.slot.items = [])
    (empty : w.box.queue = []) (uncancelled : w.box.cancels.items = [])
    (running : (w.run past).box.hasStopped = false)
    (stopped : ((w.run past).after event).box.hasStopped = true)
    (torn : (w.run past).tornDown = false) (open_ : (w.run past).box.slot.isOpen = true) :
    w.Drained (past ++ [event]) := by
  have still := sound_run sound past
  obtain ⟨rfl, box, step, next⟩ := turn_of_ended running stopped
  have none : ((w.run past).after .turn).box.queue = [] := by
    obtain ⟨-, -, quiet, -⟩ := (sound_after still .turn).stopped stopped
    rw [next] at stopped quiet ⊢
    rcases still.reason step stopped with forced | gone | ⟨-, pending⟩
    · rw [torn] at forced
      contradiction
    · rw [open_] at gone
      contradiction
    · rw [queue, pending, quiet]
      rfl
  have acts : OneList ((w.run past).deed? .turn) (w.run past).box.queue [] := by
    rcases oneList_after still .turn with acts | ⟨-, forced, -, -⟩
    · rwa [none] at acts
    · simp [torn, open_] at forced
  have queued := (kept sound empty past).queued_concat running acts
  refine drained sound vacant empty uncancelled ?_ queued
  rw [run_concat]
  rcases turned_after still with ⟨-, same⟩ | ⟨box, turned, next⟩
  · rw [same]
    exact open_
  · rw [next]
    exact turned.isOpen_slot.trans open_

/-- Where a task waits or has ended, it had to. -/
theorem ended_or_waits (sound : w.box.Sound) (occupied : w.box.Occupied)
    (waiting : w.box.turn w.tornDown = none) : w.box.hasStopped = true ∨ w.tornDown = false ∧
      (w.box.queue = [] ∧ w.box.hasSenders = true ∨
        w.box.queue ≠ [] ∧ w.box.slot.isOpen = true ∧ w.box.slot.hasRoom 0 = false) := by
  by_cases running : w.box.hasStopped = false
  · refine .inr ⟨(waits_of_turn running waiting).torn, ?_⟩
    by_cases empty : w.box.queue = []
    · exact .inl ⟨empty, hasSenders_of_waiting occupied running waiting empty⟩
    · exact .inr ⟨empty, full_of_waiting sound running waiting empty⟩
  · exact .inl (by simpa using running)

/-- The task of the write queue ends for a reason, leaves nothing behind unless it had to give
up, and ends when it must: in every run, and for channels of any capacity.

It is a step of its own with which it ends, and then the connection is torn down, or the writer
is gone, or nobody is left who could send and nothing is pending. If it is neither of the first
two, everything that was ever accepted has been handed over in the order of its acceptance, but
for the blocks that were retracted. After the end whoever puts a message in, waiting in line or
not, is turned away. And from any moment on the task can take only so many steps in a row before
it has ended or waits: with nothing queued for those who can still send, or else for room in the
slot of a writer who is there. -/
theorem ends_for_a_reason (incoming cancels slot : Nat) (past : List Event) :
    let fresh := start incoming cancels slot
    let w := fresh.run past
    (∀ event, w.box.hasStopped = false → (w.after event).box.hasStopped = true →
      event = .turn ∧
        (w.tornDown = true ∨ w.box.slot.isOpen = false ∨
          w.box.hasSenders = false ∧ (w.after event).box.pending = []) ∧
        (w.tornDown = false → w.box.slot.isOpen = true → fresh.Drained (past ++ [event]))) ∧
      (w.box.hasStopped = true → ∀ later, (w.run later).box.hasStopped = true ∧
        ∀ who message, ((w.run later).box.incoming.put who message).1 = .closed ∧
          (w.run later).deed? (.push who message) = none) ∧
      let rest := w.run (List.replicate w.box.turnsLeft .turn)
      rest.box.turn rest.tornDown = none ∧
        (rest.box.hasStopped = true ∨ rest.tornDown = false ∧
          (rest.box.queue = [] ∧ rest.box.hasSenders = true ∨
            rest.box.queue ≠ [] ∧ rest.box.slot.isOpen = true ∧
              rest.box.slot.hasRoom 0 = false)) := by
  intro fresh w
  have sound : ∀ history, (fresh.run history).box.Sound :=
    sound_run (sound_start incoming cancels slot)
  refine ⟨?_, ?_, ?_⟩
  · intro event running stopped
    obtain ⟨rfl, box, step, next⟩ := turn_of_ended running stopped
    have reason := (sound past).reason step (by rwa [next] at stopped)
    refine ⟨rfl, by rwa [next], ?_⟩
    intro torn open_
    exact drained_of_ended (sound []) rfl rfl rfl running stopped torn open_
  · intro stopped later
    have ended := hasStopped_run stopped later
    exact ⟨ended, turned_away (sound_run (sound past) later) ended⟩
  · intro rest
    have waiting : rest.box.turn rest.tornDown = none :=
      waiting_after_turns w.box.strength_le_turnsLeft
    have occupied := occupied_run (occupied_start incoming cancels slot) past
    exact ⟨waiting, ended_or_waits (sound_run (sound past) _) (occupied_run occupied _) waiting⟩

/-- That nobody is left to send is noticed while a cancellation is taken up. What has arrived
by then goes out, but for the block that the cancellation names. -/
theorem ends_for_a_reason_absorbing :
    let block : Message := .piece { piece := 4, offset := 0, data := [1, 2] }
    let past : List Event := [.push none .choke, .push none block, .push none .unchoke,
      .cancel none { piece := 4, offset := 0, length := 2 }, .dropSenders, .turn, .turn, .take 1]
    let w := (start 8 8 1).run past
    w.box.hasStopped = false ∧ (w.after .turn).box.hasStopped = true ∧
      w.tornDown = false ∧ w.box.slot.isOpen = true ∧ (start 8 8 1).Drained (past ++ [.turn]) ∧
      (start 8 8 1).ledger (past ++ [.turn]) =
        [⟨.choke, .handedOver⟩, ⟨block, .retracted⟩, ⟨.unchoke, .handedOver⟩] := by
  intro block past w
  have running : w.box.hasStopped = false := by decide
  have stopped : (w.after .turn).box.hasStopped = true := by decide
  have untorn : w.tornDown = false := by decide
  have open_ : w.box.slot.isOpen = true := by decide
  obtain ⟨-, -, drained⟩ := (ends_for_a_reason 8 8 1 past).1 .turn running stopped
  exact ⟨running, stopped, untorn, open_, drained untorn open_, by decide⟩

end World

end Outbox

end PeerWire

import Mathlib.Data.List.Induction
import PeerWire.Proofs.Ledger

/-!
A write queue among those who use it. Anybody may put messages and cancellations in, the
writer takes messages out, the senders or the writer may leave, and the connection may be
torn down, in any order and between any two steps of the queue's task. A `Deed` is what an
event visibly does to the messages: one is accepted, one is retracted, or one is handed
over to the writer. `Turned` sorts the steps of the task by their deeds.
-/

namespace PeerWire

namespace Outbox

/-- What can happen to a write queue. -/
inductive Event where
  /-- The queue's task takes a step, if it can. -/
  | turn
  | push (who : Option Party) (message : Message)
  | cancel (who : Option Party) (ref : BlockRef)
  /-- The party does not wait for room any longer. -/
  | giveUp (party : Party)
  /-- The writer takes up to so many messages. -/
  | take (most : Nat)
  /-- The last of those who could send is gone. -/
  | dropSenders
  /-- The writer is gone. -/
  | dropReceiver
  | tearDown
deriving DecidableEq, Repr

/-- A write queue, and whether its connection is torn down. -/
structure World where
  box : Outbox
  tornDown : Bool := false
deriving DecidableEq, Repr

/-- What an event visibly does to the messages. -/
inductive Deed where
  | accepted (message : Message)
  | retracted (ref : BlockRef)
  | handedOver (message : Message)
deriving DecidableEq, Repr

/-- The deed of the task's next step: a cancellation that is taken up, or what has come
to stand in the slot. -/
def turnDeed? (box : Outbox) (tornDown : Bool) : Option Deed :=
  match box.retraction? tornDown with
  | some ref => some (.retracted ref)
  | none =>
      ((box.turn tornDown).bind fun after => (box.slot.gained after.slot).head?).map .handedOver

namespace World

/-- An empty write queue. -/
def start (incoming cancels slot : Nat) : World where
  box := .start incoming cancels slot

/-- What an event leads to. Only who is still there sends. -/
def after (w : World) : Event → World
  | .turn => { w with box := (w.box.turn w.tornDown).getD w.box }
  | .push who message =>
      if w.box.hasSenders then
        { w with box := { w.box with incoming := (w.box.incoming.put who message).2 } }
      else w
  | .cancel who ref => { w with box := { w.box with cancels := (w.box.cancels.put who ref).2 } }
  | .giveUp party =>
      { w with box := { w.box with
          incoming := w.box.incoming.leave party
          cancels := w.box.cancels.leave party } }
  | .take most => { w with box := { w.box with slot := (w.box.slot.take most).2 } }
  | .dropSenders => { w with box := { w.box with hasSenders := false } }
  | .dropReceiver => { w with box := { w.box with slot := w.box.slot.close } }
  | .tearDown => { w with tornDown := true }

/-- What an event visibly does. -/
def deed? (w : World) : Event → Option Deed
  | .turn => w.box.turnDeed? w.tornDown
  | .push who message =>
      if w.box.hasSenders ∧ (w.box.incoming.put who message).1 = .accepted then
        some (.accepted message)
      else none
  | _ => none

/-- A history of events, one after the other. -/
def run (w : World) (history : List Event) : World :=
  history.foldl after w

/-- Everything that a history visibly does, oldest first. -/
def deeds (w : World) : List Event → List Deed
  | [] => []
  | event :: history => (w.deed? event).toList ++ (w.after event).deeds history

section Histories

variable (w : World) (past later : List Event) (event : Event)

@[simp] theorem run_nil : w.run [] = w := rfl

theorem run_append : w.run (past ++ later) = (w.run past).run later :=
  List.foldl_append

@[simp] theorem run_concat : w.run (past ++ [event]) = (w.run past).after event :=
  w.run_append past [event]

theorem deeds_append : w.deeds (past ++ later) = w.deeds past ++ (w.run past).deeds later := by
  induction past generalizing w with
  | nil => rfl
  | cons first rest ih =>
      have run : w.run (first :: rest) = (w.after first).run rest := rfl
      simp only [List.cons_append, deeds, ih, run, List.append_assoc]

@[simp] theorem deeds_concat :
    w.deeds (past ++ [event]) = w.deeds past ++ ((w.run past).deed? event).toList := by
  rw [deeds_append, deeds, deeds, List.append_nil]

end Histories

/-- What every event keeps is kept along any history. -/
theorem run_invariant {motive : World → Prop} {w : World} (start : motive w)
    (kept : ∀ {w : World}, motive w → ∀ event, motive (w.after event)) (history : List Event) :
    motive (w.run history) :=
  List.foldlRecOn history after start fun _ holds event _ => kept holds event

end World

/-- Nothing comes any more once the task no longer listens, or has ended. -/
structure Sound (box : Outbox) : Prop where
  deaf : box.isListening = false → box.hasSenders = false ∧ box.incoming.items = []
  stopped : box.hasStopped = true → box.incoming.isOpen = false ∧ box.cancels.isOpen = false ∧
    box.incoming.items = [] ∧ box.cancels.items = []

/-! ### The steps of the task -/

/-- What a step of the task does, sorted by what is seen of it. -/
inductive Turned (box : Outbox) (tornDown : Bool) : Option Deed → Outbox → Prop where
  /-- A cancellation is taken up. -/
  | retracted {ref : BlockRef} {later : List BlockRef} {after : Outbox} (torn : tornDown = false)
      (front : box.cancels.items = ref :: later)
      (queue : after.queue = box.queue.eraseP (isRetractedBy ref)) (slot : after.slot = box.slot)
      (cancels : after.hasStopped = false → after.cancels.items = later) :
      Turned box tornDown (some (.retracted ref)) after
  /-- The oldest message is handed over. -/
  | handedOver {message : Message} {after : Outbox} (torn : tornDown = false)
      (uncancelled : box.cancels.items = []) (queue : box.queue = message :: after.queue)
      (slot : after.slot = box.slot.push message) (cancels : after.cancels.items = []) :
      Turned box tornDown (some (.handedOver message)) after
  /-- Nothing is seen. -/
  | rested {after : Outbox} (torn : tornDown = false) (uncancelled : box.cancels.items = [])
      (queue : after.queue = box.queue) (slot : after.slot = box.slot)
      (cancels : after.cancels.items = []) : Turned box tornDown none after
  /-- The task gives up. -/
  | gaveUp (forced : tornDown = true ∨ box.cancels.items = [] ∧ box.slot.isOpen = false) :
      Turned box tornDown none box.stop

section Turns

variable {box after : Outbox} {tornDown : Bool}

/-- A cancellation finds a block wherever it stands, also when nothing comes any more. -/
theorem Sound.queue_retract (sound : box.Sound) (ref : BlockRef) :
    (({ box with cancels := (box.cancels.take 1).2 } : Outbox).absorb.retract ref).queue =
      box.queue.eraseP (isRetractedBy ref) := by
  by_cases listening : box.isListening = true
  · exact Outbox.queue_retract listening ref
  · obtain ⟨_, quiet⟩ := sound.deaf (by simpa using listening)
    simp [queue, retract, absorb, listening, quiet]

@[simp] theorem slot_retract (box : Outbox) (ref : BlockRef) :
    (box.absorb.retract ref).slot = box.slot := by
  unfold retract absorb
  split <;> rfl

@[simp] theorem cancels_retract (box : Outbox) (ref : BlockRef) :
    (box.absorb.retract ref).cancels = box.cancels := by
  unfold retract absorb
  split <;> rfl

/-- A move of the task is of one of the four sorts. -/
theorem OutboxMove.turned (move : OutboxMove box tornDown after) (sound : box.Sound) :
    ∃ deed, Turned box tornDown deed after := by
  cases move with
  | tear torn => exact ⟨none, .gaveUp (.inl torn)⟩
  | @retract ref later torn front =>
      refine ⟨some (.retracted ref), .retracted torn front (sound.queue_retract ref) ?_ ?_⟩
      · simp
      · simp [front]
  | takeIn torn uncancelled listening front =>
      exact ⟨none, .rested torn uncancelled (queue_takeIn front) rfl uncancelled⟩
  | deafen torn uncancelled quiet senders =>
      exact ⟨none, .rested torn uncancelled rfl rfl uncancelled⟩
  | strand torn uncancelled gone => exact ⟨none, .gaveUp (.inr ⟨uncancelled, gone⟩)⟩
  | @handOver message later torn uncancelled quiet front open_ room =>
      exact ⟨some (.handedOver message),
        .handedOver torn uncancelled (queue_handOver front) rfl uncancelled⟩

theorem OutboxMove.sound (move : OutboxMove box tornDown after) (sound : box.Sound)
    (running : box.hasStopped = false) : after.Sound := by
  cases move with
  | tear torn => exact ⟨fun deaf => ⟨(sound.deaf deaf).1, rfl⟩, fun _ => ⟨rfl, rfl, rfl, rfl⟩⟩
  | strand torn uncancelled gone =>
      exact ⟨fun deaf => ⟨(sound.deaf deaf).1, rfl⟩, fun _ => ⟨rfl, rfl, rfl, rfl⟩⟩
  | retract torn front =>
      unfold Outbox.retract absorb
      split
      · exact ⟨fun deaf => ⟨deaf, Mailbox.items_takeAll _⟩, by simp [running]⟩
      · exact ⟨sound.deaf, by simp [running]⟩
  | takeIn torn uncancelled listening front => exact ⟨by simp [listening], by simp [running]⟩
  | deafen torn uncancelled quiet senders => exact ⟨fun _ => ⟨senders, quiet⟩, by simp [running]⟩
  | handOver torn uncancelled quiet front open_ room => exact ⟨sound.deaf, by simp [running]⟩

theorem Sound.stop (sound : box.Sound) : box.stop.Sound where
  deaf deaf := ⟨(sound.deaf deaf).1, rfl⟩
  stopped _ := ⟨rfl, rfl, rfl, rfl⟩

/-- The task may end with a step after which its queue is empty. -/
theorem Turned.stop {deed : Option Deed} (turned : Turned box tornDown deed after)
    (empty : after.queue = []) : Turned box tornDown deed after.stop := by
  have pending : after.pending = [] := (List.append_eq_nil_iff.mp empty).1
  have queue : after.stop.queue = after.queue := by
    rw [empty]
    simp [Outbox.queue, Outbox.stop, pending]
  cases turned with
  | retracted torn front erased slot cancels =>
      exact .retracted torn front (queue.trans erased) slot (by simp [Outbox.stop])
  | handedOver torn uncancelled left slot cancels =>
      exact .handedOver torn uncancelled (by rw [queue, left]) slot rfl
  | rested torn uncancelled same slot cancels =>
      exact .rested torn uncancelled (queue.trans same) slot rfl
  | gaveUp forced => exact .gaveUp forced

/-- What is seen of a step is its deed. -/
theorem Turned.deed_eq {deed : Option Deed} (turned : Turned box tornDown deed after)
    (step : box.turn tornDown = some after) (running : box.hasStopped = false) :
    box.turnDeed? tornDown = deed := by
  have untaken : tornDown = true ∨ box.cancels.items = [] →
      box.turnDeed? tornDown = (box.slot.gained after.slot).head?.map .handedOver := by
    intro idle
    have none : box.retraction? tornDown = none := by
      rcases idle with torn | uncancelled
      · simp [retraction?, torn]
      · simp [retraction?, uncancelled]
    simp [turnDeed?, none, step]
  cases turned with
  | retracted torn front queue slot cancels =>
      simp [turnDeed?, retraction?, running, torn, front]
  | handedOver torn uncancelled queue slot cancels =>
      rw [untaken (.inr uncancelled), slot, Mailbox.gained_of_items _ (Mailbox.items_push _ _)]
      rfl
  | rested torn uncancelled queue slot cancels =>
      rw [untaken (.inr uncancelled), slot, Mailbox.gained_self]
      rfl
  | gaveUp forced =>
      rw [untaken (forced.imp_right And.left)]
      simp [Outbox.stop]

/-- Every step of the task is of one of the four sorts, and keeps the queue sound. -/
theorem Sound.turn (sound : box.Sound) (step : box.turn tornDown = some after) :
    Turned box tornDown (box.turnDeed? tornDown) after ∧ after.Sound := by
  obtain ⟨running, moved, move, settled⟩ := outboxMove_of_turn step
  have still := move.sound sound running
  obtain ⟨deed, turned⟩ := move.turned sound
  have ended : Turned box tornDown deed after ∧ after.Sound := by
    rcases settled with rfl | ⟨rfl, deaf, pending⟩
    · exact ⟨turned, still⟩
    · have empty : moved.queue = [] := by simp [queue, pending, (still.deaf deaf).2]
      exact ⟨turned.stop empty, still.stop⟩
  rw [ended.1.deed_eq step running]
  exact ended

/-- A task that takes no step does nothing that is seen. -/
theorem turnDeed?_of_waiting (waiting : box.turn tornDown = none) :
    box.turnDeed? tornDown = none := by
  simp [turnDeed?, Books.retraction?_of_waiting waiting, waiting]

end Turns

/-! ### Runs -/

namespace World

variable {w : World}

theorem sound_start (incoming cancels slot : Nat) : (start incoming cancels slot).box.Sound :=
  ⟨nofun, nofun⟩

/-- Only the task itself has anything to do with its own soundness. -/
theorem sound_after (sound : w.box.Sound) (event : Event) : (w.after event).box.Sound := by
  cases event with
  | turn =>
      cases step : w.box.turn w.tornDown with
      | none => simpa [after, step] using sound
      | some box => simpa [after, step] using (sound.turn step).2
  | push who message =>
      unfold after
      dsimp only
      split
      · rename_i senders
        refine ⟨fun deaf => ?_, fun stopped => ?_⟩
        · exact absurd senders (by simp [(sound.deaf deaf).1])
        · obtain ⟨shut, cancels, empty, uncancelled⟩ := sound.stopped stopped
          refine ⟨by simpa using shut, cancels, ?_, uncancelled⟩
          simp [Mailbox.items_put, Mailbox.put_of_closed _ who message shut, empty]
      · exact sound
  | cancel who ref =>
      refine ⟨sound.deaf, fun stopped => ?_⟩
      obtain ⟨shut, cancels, empty, uncancelled⟩ := sound.stopped stopped
      refine ⟨shut, by simpa [after] using cancels, empty, ?_⟩
      simp [after, Mailbox.items_put, Mailbox.put_of_closed _ who ref cancels, uncancelled]
  | giveUp party => exact ⟨sound.deaf, sound.stopped⟩
  | take most => exact ⟨sound.deaf, sound.stopped⟩
  | dropSenders => exact ⟨fun deaf => ⟨rfl, (sound.deaf deaf).2⟩, sound.stopped⟩
  | dropReceiver => exact ⟨sound.deaf, sound.stopped⟩
  | tearDown => exact ⟨sound.deaf, sound.stopped⟩

theorem sound_run (sound : w.box.Sound) (history : List Event) : (w.run history).box.Sound :=
  run_invariant (motive := fun w => w.box.Sound) sound sound_after history

end World

end Outbox

end PeerWire

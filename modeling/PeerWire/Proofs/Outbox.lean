import PeerWire.Outbox
import PeerWire.Proofs.Mailbox

/-!
What one step of the write queue's task does. Every step is one of the moves of
`OutboxMove`, perhaps followed by the end of the task. Seen as one list, `Outbox.queue`
loses a block to a cancellation and its oldest message to the slot, and otherwise stays
as it is: what has arrived counts as queued from the moment it was accepted.

As long as something has arrived, the task can take it in: `turn_of_backlog`.
-/

namespace PeerWire.Outbox

/-- What one step does, before the check that ends the task. -/
inductive OutboxMove (box : Outbox) (tornDown : Bool) : Outbox → Prop where
  | tear (torn : tornDown = true) : OutboxMove box tornDown box.stop
  | retract {ref : BlockRef} {later : List BlockRef} (torn : tornDown = false)
      (front : box.cancels.items = ref :: later) :
      OutboxMove box tornDown
        (({ box with cancels := (box.cancels.take 1).2 } : Outbox).absorb.retract ref)
  | takeIn {message : Message} {later : List Message} (torn : tornDown = false)
      (uncancelled : box.cancels.items = []) (listening : box.isListening = true)
      (front : box.incoming.items = message :: later) :
      OutboxMove box tornDown { box with
        incoming := (box.incoming.take 1).2
        pending := box.pending ++ [message] }
  /-- Nobody is left who could send. -/
  | deafen (torn : tornDown = false) (uncancelled : box.cancels.items = [])
      (quiet : box.incoming.items = []) (senders : box.hasSenders = false) :
      OutboxMove box tornDown { box with isListening := false }
  /-- The writer is gone. -/
  | strand (torn : tornDown = false) (uncancelled : box.cancels.items = [])
      (gone : box.slot.isOpen = false) : OutboxMove box tornDown box.stop
  | handOver {message : Message} {later : List Message} (torn : tornDown = false)
      (uncancelled : box.cancels.items = []) (quiet : box.isListening = true →
        box.incoming.items = []) (front : box.pending = message :: later)
      (open_ : box.slot.isOpen = true) (room : box.slot.hasRoom 0 = true) :
      OutboxMove box tornDown { box with pending := later, slot := box.slot.push message }

section Steps

variable {box after : Outbox} {tornDown : Bool}

theorem outboxMove_of_handOver (torn : tornDown = false) (uncancelled : box.cancels.items = [])
    (quiet : box.isListening = true → box.incoming.items = [])
    (step : box.handOver = some after) : OutboxMove box tornDown after := by
  unfold handOver at step
  split at step
  · contradiction
  · rename_i message later front
    split at step
    · rename_i gone
      cases step
      exact .strand torn uncancelled (by simpa using gone)
    · rename_i open_
      split at step
      · rename_i room
        cases step
        exact .handOver torn uncancelled quiet front (by simpa using open_) room
      · contradiction

theorem outboxMove_of_select (step : box.select tornDown = some after) :
    OutboxMove box tornDown after := by
  unfold select at step
  split at step
  · rename_i torn
    cases step
    exact .tear torn
  · rename_i untorn
    have torn : tornDown = false := by simpa using untorn
    split at step
    · rename_i front
      cases step
      exact .retract torn front
    · rename_i uncancelled
      split at step
      · rename_i listening
        split at step
        · rename_i front
          cases step
          exact .takeIn torn uncancelled listening front
        · rename_i quiet
          split at step
          · exact outboxMove_of_handOver torn uncancelled (fun _ => quiet) step
          · rename_i senders
            cases step
            exact .deafen torn uncancelled quiet (by simpa using senders)
      · rename_i deaf
        exact outboxMove_of_handOver torn uncancelled (fun listening => absurd listening deaf) step

/-- A step of the task is a move, and the end of the task when there is nothing left. -/
theorem outboxMove_of_turn (step : box.turn tornDown = some after) :
    box.hasStopped = false ∧ ∃ moved, OutboxMove box tornDown moved ∧
      (after = moved ∨ after = moved.stop ∧ moved.isListening = false ∧ moved.pending = []) := by
  unfold turn at step
  split at step
  · contradiction
  · rename_i running
    obtain ⟨moved, selected, rfl⟩ := Option.map_eq_some_iff.mp step
    refine ⟨by simpa using running, moved, outboxMove_of_select selected, ?_⟩
    unfold settleEnd
    split
    · rename_i ended
      simp only [Bool.and_eq_true, Bool.not_eq_true', List.isEmpty_iff] at ended
      exact .inr ⟨rfl, ended.1.1, ended.1.2⟩
    · exact .inl rfl

/-- Which flags a move touches, and why it does. -/
theorem OutboxMove.flags (move : OutboxMove box tornDown after) (running : box.hasStopped = false) :
    after.slot.isOpen = box.slot.isOpen ∧
      (after.hasStopped = true → tornDown = true ∨ box.slot.isOpen = false) ∧
      (after.isListening = false → box.isListening = false ∨ box.hasSenders = false) ∧
      (after.hasStopped = false → after.incoming.isOpen = box.incoming.isOpen ∧
        after.cancels.isOpen = box.cancels.isOpen) := by
  cases move with
  | tear torn => exact ⟨rfl, fun _ => .inl torn, .inl, nofun⟩
  | retract torn front =>
      unfold Outbox.retract absorb
      split
      · exact ⟨rfl, by simp [running], .inr, fun _ => ⟨rfl, rfl⟩⟩
      · exact ⟨rfl, by simp [running], .inl, fun _ => ⟨rfl, rfl⟩⟩
  | takeIn torn uncancelled listening front =>
      exact ⟨rfl, by simp [running], .inl, fun _ => ⟨rfl, rfl⟩⟩
  | deafen torn uncancelled quiet senders =>
      exact ⟨rfl, by simp [running], fun _ => .inr senders, fun _ => ⟨rfl, rfl⟩⟩
  | strand torn uncancelled gone => exact ⟨rfl, fun _ => .inr gone, .inl, nofun⟩
  | handOver torn uncancelled quiet front open_ room =>
      exact ⟨rfl, by simp [running], .inl, fun _ => ⟨rfl, rfl⟩⟩

/-- The outbox's task does not stop without closing what it listens to. -/
theorem OutboxMove.shut (move : OutboxMove box tornDown after) (running : box.hasStopped = false)
    (stopped : after.hasStopped = true) : after.incoming.isOpen = false := by
  cases move with
  | tear => rfl
  | strand => rfl
  | retract torn front =>
      unfold Outbox.retract Outbox.absorb at stopped
      split at stopped
      · exact absurd stopped (by simp [running])
      · exact absurd stopped (by simp [running])
  | _ => exact absurd stopped (by simp [running])

/-- The task only ever takes out of what has arrived. -/
theorem OutboxMove.gained_incoming (move : OutboxMove box tornDown after) :
    box.incoming.gained after.incoming = [] := by
  cases move with
  | retract torn front =>
      unfold Outbox.retract absorb
      split
      · exact Mailbox.gained_takeAll _
      · exact Mailbox.gained_self _
  | takeIn => exact Mailbox.gained_take _ _
  | tear => exact Mailbox.gained_close _ _
  | strand => exact Mailbox.gained_close _ _
  | _ => exact Mailbox.gained_self _

/-- The task lets nobody into the line for cancellations. -/
theorem OutboxMove.cancelled (move : OutboxMove box tornDown after) (party : Party) :
    box.cancels.Visited party after.cancels := by
  cases move with
  | retract torn front =>
      unfold Outbox.retract absorb
      split <;> exact .of_line rfl rfl
  | _ => exact .of_line rfl rfl

/-- What a task that waits has found: the connection stands, neither a cancellation nor a message
has arrived, as far as it listens somebody can still send, and nothing can be handed over. -/
structure Waits (box : Outbox) (tornDown : Bool) : Prop where
  torn : tornDown = false
  uncancelled : box.cancels.items = []
  quiet : box.isListening = true → box.incoming.items = [] ∧ box.hasSenders = true
  unsent : box.handOver = none

theorem waits_of_select (unselected : box.select tornDown = none) : box.Waits tornDown := by
  unfold select at unselected
  split at unselected
  · contradiction
  · rename_i untorn
    have torn : tornDown = false := by simpa using untorn
    split at unselected
    · contradiction
    · rename_i uncancelled
      split at unselected
      · split at unselected
        · contradiction
        · rename_i quiet
          split at unselected
          · rename_i senders
            exact ⟨torn, uncancelled, fun _ => ⟨quiet, senders⟩, unselected⟩
          · contradiction
      · rename_i deaf
        exact ⟨torn, uncancelled, fun listening => absurd listening deaf, unselected⟩

/-- A task that takes no step has ended, or it waits. -/
theorem waits_of_turn (running : box.hasStopped = false) (stuck : box.turn tornDown = none) :
    box.Waits tornDown := by
  unfold turn at stuck
  rw [if_neg (by simp [running]), Option.map_eq_none_iff] at stuck
  exact waits_of_select stuck

/-- What is pending stays where it is only if the slot has no room. -/
theorem full_of_unsent (unsent : box.handOver = none) (pending : box.pending ≠ []) :
    box.slot.isOpen = true ∧ box.slot.hasRoom 0 = false := by
  unfold handOver at unsent
  split at unsent
  · contradiction
  · split_ifs at unsent with gone room
    exact ⟨by simpa using gone, by simpa using room⟩

end Steps

/-! ### The queue as one list -/

section Queue

variable {box : Outbox}

/-- A cancellation finds a block wherever it stands, as long as arrivals are taken in. -/
theorem queue_retract (listening : box.isListening = true) (ref : BlockRef) :
    (({ box with cancels := (box.cancels.take 1).2 } : Outbox).absorb.retract ref).queue =
      box.queue.eraseP (isRetractedBy ref) := by
  simp [queue, retract, absorb, listening]

theorem queue_takeIn {message : Message} {later : List Message}
    (front : box.incoming.items = message :: later) :
    ({ box with
      incoming := (box.incoming.take 1).2
      pending := box.pending ++ [message] } : Outbox).queue = box.queue := by
  simp [queue, front]

/-- The oldest message leaves for the slot. -/
theorem queue_handOver {message : Message} {later : List Message}
    (front : box.pending = message :: later) :
    box.queue = message :: ({ box with
      pending := later
      slot := box.slot.push message } : Outbox).queue := by
  simp [queue, front]

/-- A message that no cancellation names stays queued until it is in the slot, as long as the
task runs. -/
theorem OutboxMove.keeps {after : Outbox} {tornDown : Bool} {message : Message}
    (move : OutboxMove box tornDown after) (running : after.hasStopped = false)
    (listening : box.isListening = true) (unnamed : ∀ ref, ¬ isRetractedBy ref message)
    (here : message ∈ box.queue ∨ message ∈ box.slot.items) :
    message ∈ after.queue ∨ message ∈ after.slot.items := by
  cases move with
  | tear => contradiction
  | strand => contradiction
  | @retract ref later torn front =>
      have slot : (({ box with cancels := (box.cancels.take 1).2 } : Outbox).absorb.retract
          ref).slot = box.slot := by
        unfold Outbox.retract absorb
        split <;> rfl
      rw [queue_retract listening ref, slot]
      exact here.imp_left (List.mem_eraseP_of_neg (unnamed ref)).mpr
  | takeIn torn uncancelled open_ front =>
      rw [queue_takeIn front]
      exact here
  | deafen => exact here
  | @handOver first later torn uncancelled quiet front open_ room =>
      rw [queue_handOver front, List.mem_cons] at here
      rw [Mailbox.items_push, List.mem_append, List.mem_singleton]
      rcases here with (rfl | behind) | ready
      · exact .inr (.inr rfl)
      · exact .inl behind
      · exact .inr (.inl ready)

end Queue

/-! ### What has arrived -/

/-- How much has arrived and is not taken in yet. -/
def backlog (box : Outbox) : Nat :=
  box.incoming.items.length + box.cancels.items.length

theorem backlog_settleEnd (box : Outbox) : box.settleEnd.backlog ≤ box.backlog := by
  unfold settleEnd
  split
  · exact Nat.zero_le _
  · exact Nat.le_refl _

/-- Where something has arrived the task goes on by taking it in. -/
theorem turn_of_backlog (box : Outbox) (running : box.hasStopped = false)
    (listening : box.isListening = true) (arrived : 0 < box.backlog) :
    ∃ after, box.turn false = some after ∧ after.backlog < box.backlog := by
  obtain ⟨moved, selected, less⟩ : ∃ moved, box.select false = some moved ∧
      moved.backlog < box.backlog := by
    unfold backlog at arrived ⊢
    unfold select
    cases cancels : box.cancels.items with
    | cons ref later =>
        refine ⟨_, rfl, ?_⟩
        simp only [Outbox.retract, absorb, listening, if_true, Mailbox.items_takeAll,
          Mailbox.items_take, cancels, List.length_drop, List.length_cons, List.length_nil]
        omega
    | nil =>
        cases incoming : box.incoming.items with
        | cons message later =>
            rw [if_pos listening]
            exact ⟨_, rfl, by simp [incoming, cancels]⟩
        | nil => simp [cancels, incoming] at arrived
  exact ⟨moved.settleEnd, by simp [turn, running, selected],
    Nat.lt_of_le_of_lt (backlog_settleEnd moved) less⟩

end PeerWire.Outbox

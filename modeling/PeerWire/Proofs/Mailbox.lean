import Mathlib.Tactic.Common
import PeerWire.Mailbox

/-!
What the operations on a mailbox do to its items. Items enter at the back, when they are
accepted and only then, and leave at the front; a mailbox that has been closed stays
closed. `Mailbox.gained` is what has entered between two moments at which nothing was
taken out. `Mailbox.put` is the way in for anybody, in line or not.
-/

namespace PeerWire.Mailbox

variable {α : Type} (box : Mailbox α) (party : Party) (item : α)

/-- What stands in a mailbox `after` behind everything that stood in it before. -/
def gained (box after : Mailbox α) : List α :=
  after.items.drop box.items.length

/-! ### Items -/

@[simp] theorem items_leave : (box.leave party).items = box.items := rfl

@[simp] theorem isOpen_leave : (box.leave party).isOpen = box.isOpen := rfl

@[simp] theorem items_push : (box.push item).items = box.items ++ [item] := rfl

@[simp] theorem isOpen_push : (box.push item).isOpen = box.isOpen := rfl

@[simp] theorem items_join : (box.join party).items = box.items := by
  unfold join
  split <;> rfl

@[simp] theorem isOpen_join : (box.join party).isOpen = box.isOpen := by
  unfold join
  split <;> rfl

@[simp] theorem items_take (most : Nat) : (box.take most).2.items = box.items.drop most := rfl

@[simp] theorem items_takeAll : box.takeAll.2.items = [] := by simp [takeAll]

@[simp] theorem items_close : box.close.items = [] := rfl

@[simp] theorem isOpen_close : box.close.isOpen = false := rfl

@[simp] theorem isOpen_send : (box.send party item).2.isOpen = box.isOpen := by
  unfold send
  split_ifs <;> simp

@[simp] theorem isOpen_offer : (box.offer item).2.isOpen = box.isOpen := by
  unfold offer
  split_ifs <;> simp

theorem items_send : (box.send party item).2.items =
    box.items ++ if (box.send party item).1 = .accepted then [item] else [] := by
  unfold send
  split_ifs <;> simp_all

variable {box party item} in
theorem items_send_of_accepted (accepted : (box.send party item).1 = .accepted) :
    (box.send party item).2.items = box.items ++ [item] := by
  rw [items_send, if_pos accepted]

variable {box party item} in
theorem items_send_of_full (full : (box.send party item).1 = .full) :
    (box.send party item).2.items = box.items := by
  rw [items_send, full, if_neg nofun, List.append_nil]

theorem items_offer : (box.offer item).2.items =
    box.items ++ if (box.offer item).1 = .accepted then [item] else [] := by
  unfold offer
  split_ifs <;> simp_all

theorem prefix_send : box.items <+: (box.send party item).2.items :=
  ⟨_, (box.items_send party item).symm⟩

theorem prefix_offer : box.items <+: (box.offer item).2.items :=
  ⟨_, (box.items_offer item).symm⟩

/-- Only a mailbox whose receiver is gone turns an item away for good. -/
theorem send_eq_closed_iff : (box.send party item).1 = .closed ↔ box.isOpen = false := by
  unfold send
  split_ifs <;> simp_all

/-! ### Anybody puts something in -/

/-- Puts an item in: a party waits in line for room, nobody in particular does not wait. -/
def put {α : Type} (box : Mailbox α) (who : Option Party) (item : α) :
    Receipt × Mailbox α :=
  match who with
  | some party => box.send party item
  | none => box.offer item

theorem items_put (box : Mailbox α) (who : Option Party) (item : α) : (box.put who item).2.items =
    box.items ++ if (box.put who item).1 = .accepted then [item] else [] := by
  cases who with
  | some party => exact box.items_send party item
  | none => exact box.items_offer item

@[simp] theorem isOpen_put (box : Mailbox α) (who : Option Party) (item : α) :
    (box.put who item).2.isOpen = box.isOpen := by
  cases who with
  | some party => exact box.isOpen_send party item
  | none => exact box.isOpen_offer item

/-- A mailbox whose receiver is gone accepts nothing. -/
theorem put_of_closed (box : Mailbox α) (who : Option Party) (item : α)
    (shut : box.isOpen = false) :
    (box.put who item).1 = .closed := by
  cases who with
  | some party => exact (box.send_eq_closed_iff party item).mpr shut
  | none => simp [put, offer, shut]

/-- A mailbox whose receiver is gone holds nothing. -/
def Sealed (box : Mailbox α) : Prop :=
  box.isOpen = false → box.items = []

theorem sealed_close (box : Mailbox α) : box.close.Sealed := fun _ => rfl

theorem Sealed.take {box : Mailbox α} (shut : box.Sealed) (most : Nat) :
    (box.take most).2.Sealed := by
  intro closed
  rw [items_take, shut closed, List.drop_nil]

theorem Sealed.put {box : Mailbox α} (shut : box.Sealed) (who : Option Party) (item : α) :
    (box.put who item).2.Sealed := by
  intro closed
  rw [isOpen_put] at closed
  rw [items_put, box.put_of_closed who item closed, shut closed]
  rfl

/-! ### What has entered -/

theorem gained_of_items {after : Mailbox α} {entered : List α}
    (grown : after.items = box.items ++ entered) : box.gained after = entered := by
  simp [gained, grown]

/-- Where nothing was taken out, what has entered stands behind what was there. -/
theorem items_of_prefix {after : Mailbox α} (grown : box.items <+: after.items) :
    after.items = box.items ++ box.gained after := by
  obtain ⟨entered, grown⟩ := grown
  rw [box.gained_of_items grown.symm, grown]

@[simp] theorem gained_self : box.gained box = [] := by simp [gained]

theorem gained_send : box.gained (box.send party item).2 =
    if (box.send party item).1 = .accepted then [item] else [] :=
  box.gained_of_items (box.items_send party item)

@[simp] theorem gained_leave : box.gained (box.leave party) = [] := by simp [gained]

@[simp] theorem gained_take (most : Nat) : box.gained (box.take most).2 = [] := by
  simp [gained]

@[simp] theorem gained_takeAll : box.gained box.takeAll.2 = [] := by simp [gained]

@[simp] theorem gained_close (after : Mailbox α) : box.gained after.close = [] := by
  simp [gained]

/-! ### Who waits -/

/-- Nobody but the party has come to wait in line, and there is as much room as before. -/
structure Visited (after : Mailbox α) : Prop where
  capacity : after.capacity = box.capacity
  line : ∀ other ∈ after.line, other = party ∨ other ∈ box.line

namespace Visited

variable {box party} {after later : Mailbox α}

theorem of_line (capacity : after.capacity = box.capacity) (line : after.line = box.line) :
    box.Visited party after :=
  ⟨capacity, fun _ waits => .inr (line ▸ waits)⟩

theorem trans (first : box.Visited party after) (second : after.Visited party later) :
    box.Visited party later where
  capacity := second.capacity.trans first.capacity
  line other waits := (second.line other waits).elim .inl (first.line other)

theorem leave (box : Mailbox α) (party : Party) : box.Visited party (box.leave party) :=
  ⟨rfl, fun _ waits => .inr (List.mem_of_mem_erase waits)⟩

theorem send (box : Mailbox α) (party : Party) (item : α) :
    box.Visited party (box.send party item).2 := by
  unfold Mailbox.send
  split_ifs
  · exact leave box party
  · exact (leave box party).trans (of_line rfl rfl)
  · unfold join
    split
    · exact of_line rfl rfl
    · refine ⟨rfl, ?_⟩
      intro other waits
      rcases List.mem_append.mp waits with before | now
      · exact .inr before
      · exact .inl (List.mem_singleton.mp now)

end Visited

theorem nodup_send (once : box.line.Nodup) : (box.send party item).2.line.Nodup := by
  unfold send
  split_ifs
  · exact once.erase party
  · exact once.erase party
  · unfold join
    split
    · exact once
    · rename_i absent
      refine List.nodup_append.mpr ⟨once, List.pairwise_singleton _ _, ?_⟩
      intro other waits last new
      rw [List.mem_singleton.mp new]
      exact fun same => absent (same ▸ waits)

variable {box party item} in
/-- A party that is not told to wait has left the line. -/
theorem not_mem_line_send (once : box.line.Nodup) (settled : (box.send party item).1 ≠ .full) :
    party ∉ (box.send party item).2.line := by
  unfold send at settled ⊢
  split_ifs at settled ⊢
  · exact once.not_mem_erase
  · exact once.not_mem_erase
  · exact absurd rfl settled

/-- What those outside do to a mailbox into which they send. -/
inductive Approached (box : Mailbox α) : Mailbox α → Prop where
  | unmoved : Approached box box
  | offered (item : α) : Approached box (box.offer item).2
  | sent {party : Party} (outside : party.isOutside = true) (item : α) :
      Approached box (box.send party item).2
  | left {party : Party} (outside : party.isOutside = true) : Approached box (box.leave party)

namespace Approached

variable {box} {after : Mailbox α}

/-- Only those outside have come to wait in line. -/
theorem visited (approached : box.Approached after) :
    ∃ party : Party, party.isOutside = true ∧ box.Visited party after := by
  cases approached with
  | unmoved => exact ⟨.scheduler, rfl, .of_line rfl rfl⟩
  | offered item =>
      refine ⟨.scheduler, rfl, ?_⟩
      unfold offer
      split_ifs <;> exact .of_line rfl rfl
  | sent outside item => exact ⟨_, outside, .send box _ item⟩
  | left outside => exact ⟨_, outside, .leave box _⟩

@[simp] theorem isOpen (approached : box.Approached after) : after.isOpen = box.isOpen := by
  cases approached <;> simp

theorem sealed (approached : box.Approached after) (shut : box.Sealed) : after.Sealed := by
  cases approached with
  | unmoved => exact shut
  | offered item => exact shut.put none item
  | sent outside item => exact shut.put (some _) item
  | left outside => exact shut

theorem nodup (approached : box.Approached after) (once : box.line.Nodup) :
    after.line.Nodup := by
  cases approached with
  | unmoved => exact once
  | offered item =>
      unfold offer
      split_ifs <;> exact once
  | sent outside item => exact nodup_send box _ item once
  | left outside => exact once.erase _

end Approached

/-- An open mailbox with room for one more, whoever comes. -/
structure Roomy {α : Type} (box : Mailbox α) : Prop where
  isOpen : box.isOpen = true
  room : box.hasRoom box.line.length = true

theorem Roomy.send_eq {box : Mailbox α} (roomy : box.Roomy) (party : Party)
    (item : α) : box.send party item = (.accepted, (box.leave party).push item) := by
  have ahead : box.line.idxOf party ≤ box.line.length := List.idxOf_le_length
  have free : box.hasRoom (box.line.idxOf party) = true := by
    have enough := roomy.room
    simp only [hasRoom, decide_eq_true_eq] at enough ⊢
    omega
  simp [send, roomy.isOpen, free]

/-- A party that finds no room has items ahead of it, or others in line who go first and
to whom all the room is promised. -/
theorem ahead_of_full (full : (box.send party item).1 = .full) :
    box.items ≠ [] ∨ box.capacity ≤ box.line.idxOf party := by
  unfold send at full
  split_ifs at full with shut room
  · rw [hasRoom, decide_eq_true_eq] at room
    by_cases empty : box.items = []
    · right
      simp only [empty, List.length_nil, Nat.zero_add, Nat.not_lt] at room
      exact room
    · exact .inl empty

/-- Nobody is told to wait at the head of the line for an empty mailbox. -/
theorem send_ne_full (empty : box.items = []) (first : box.line.idxOf party = 0)
    (roomy : 0 < box.capacity) : (box.send party item).1 ≠ .full := by
  intro full
  rcases box.ahead_of_full party item full with filled | promised
  · exact filled empty
  · rw [first] at promised
    exact absurd roomy (Nat.not_lt.mpr promised)

end PeerWire.Mailbox

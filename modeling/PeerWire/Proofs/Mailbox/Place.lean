import Mathlib.Data.List.Basic
import PeerWire.Proofs.Mailbox

/-!
Room for a party at its turn. A party that waits in line for room keeps the room that has come
free for it, whatever the others do: those ahead of it take no more than was theirs, and
those behind it nothing at all. Only the end of the receiver takes it away.
-/

namespace PeerWire.Mailbox

variable {α : Type}

/-- The mailbox is open, with room for the party and for all who go first. -/
def HasPlace (box : Mailbox α) (party : Party) : Prop :=
  box.isOpen = true ∧ box.hasRoom (box.line.idxOf party) = true

instance (box : Mailbox α) (party : Party) : Decidable (box.HasPlace party) :=
  inferInstanceAs (Decidable (_ ∧ _))

/-! ### What becomes of an item -/

section Sending

variable (box : Mailbox α) (party : Party) (item : α)

theorem send_eq_accepted_iff : (box.send party item).1 = .accepted ↔ box.HasPlace party := by
  unfold send HasPlace
  split_ifs <;> simp_all

theorem send_eq_full_iff :
    (box.send party item).1 = .full ↔ box.isOpen = true ∧ ¬ box.HasPlace party := by
  unfold send HasPlace
  split_ifs <;> simp_all

variable {box party item} in
/-- Who is told to wait stands in line. -/
theorem send_of_full (full : (box.send party item).1 = .full) :
    (box.send party item).2 = box.join party := by
  unfold send at full ⊢
  split_ifs at full ⊢
  rfl

variable {box party} in
theorem join_of_mem (waits : party ∈ box.line) : box.join party = box := by
  unfold join
  rw [if_pos waits]

theorem mem_line_join : party ∈ (box.join party).line := by
  unfold join
  split
  · assumption
  · exact List.mem_append_right _ (List.mem_singleton_self _)

end Sending

/-! ### The place in line -/

section Line

variable {party other : Party}

/-- Nobody falls back when another one leaves the line. -/
theorem idxOf_erase_le (line : List Party) (apart : other ≠ party) :
    (line.erase other).idxOf party ≤ line.idxOf party := by
  induction line with
  | nil => exact Nat.le_refl _
  | cons first rest ih =>
      rw [List.erase_cons]
      split
      · rename_i same
        rw [eq_of_beq same, List.idxOf_cons_ne _ apart]
        exact Nat.le_succ _
      · rw [List.idxOf_cons, List.idxOf_cons]
        cases first == party with
        | true => exact Nat.le_refl _
        | false => exact Nat.succ_le_succ ih

/-- Whoever stands behind the one who leaves moves up. -/
theorem idxOf_erase_lt_max {line : List Party} (waits : party ∈ line) (apart : other ≠ party) :
    (line.erase other).idxOf party < max (line.idxOf other) (line.idxOf party) := by
  induction line with
  | nil => contradiction
  | cons first rest ih =>
      rw [List.erase_cons]
      split
      · rename_i same
        rw [eq_of_beq same, List.idxOf_cons_ne _ apart]
        exact Nat.lt_of_lt_of_le (Nat.lt_succ_self _) (Nat.le_max_right _ _)
      · rename_i differs
        rw [List.idxOf_cons, List.idxOf_cons, List.idxOf_cons]
        by_cases mine : first = party
        · subst mine
          simp [differs]
        · have behind : party ∈ rest := (List.mem_cons.mp waits).resolve_left (Ne.symm mine)
          have moved := ih behind
          simp only [differs, beq_false_of_ne mine, cond_false]
          omega

variable {box after : Mailbox α}

/-- Those outside take nobody else's place in line. -/
theorem Approached.mem_line (approached : box.Approached after) (inside : party.isOutside = false)
    (waits : party ∈ box.line) : party ∈ after.line := by
  have apart : ∀ {other : Party}, other.isOutside = true → party ≠ other := by
    rintro other outside rfl
    rw [inside] at outside
    contradiction
  cases approached with
  | unmoved => exact waits
  | offered item =>
      unfold offer
      split_ifs <;> exact waits
  | sent outside item =>
      unfold send
      split_ifs
      · exact (List.mem_erase_of_ne (apart outside)).mpr waits
      · exact (List.mem_erase_of_ne (apart outside)).mpr waits
      · unfold join
        split
        · exact waits
        · exact List.mem_append_left _ waits
  | left outside => exact (List.mem_erase_of_ne (apart outside)).mpr waits

/-- Those outside leave the room alone that is there for somebody in line. -/
theorem Approached.hasPlace (approached : box.Approached after) (inside : party.isOutside = false)
    (waits : party ∈ box.line) (place : box.HasPlace party) : after.HasPlace party := by
  have apart : ∀ {other : Party}, other.isOutside = true → other ≠ party := by
    rintro other outside rfl
    rw [inside] at outside
    contradiction
  refine ⟨approached.isOpen.trans place.1, ?_⟩
  have room := place.2
  simp only [hasRoom, decide_eq_true_eq] at room ⊢
  cases approached with
  | unmoved => exact room
  | offered item =>
      have ahead := List.idxOf_lt_length_iff.mpr waits
      unfold offer
      split_ifs with shut free
      · exact room
      · simp only [hasRoom, decide_eq_true_eq] at free
        simp only [push, List.length_append, List.length_singleton]
        omega
      · exact room
  | sent outside item =>
      unfold send
      split_ifs with shut free
      · exact Nat.lt_of_le_of_lt (Nat.add_le_add_left (idxOf_erase_le _ (apart outside)) _) room
      · have moved := idxOf_erase_lt_max waits (apart outside)
        simp only [hasRoom, decide_eq_true_eq] at free
        simp only [push, leave, List.length_append, List.length_singleton]
        omega
      · unfold join
        split
        · exact room
        · simp only [List.idxOf_append_of_mem waits]
          exact room
  | left outside =>
      exact Nat.lt_of_le_of_lt (Nat.add_le_add_left (idxOf_erase_le _ (apart outside)) _) room

end Line

/-! ### The others at a mailbox -/

/-- What others do to a mailbox, by number. -/
inductive Stir (α : Type) where
  /-- Somebody puts an item in, or waits in line for room; nobody in particular does not wait. -/
  | put (who : Option Nat) (item : α)
  /-- Somebody gives up its place in line. -/
  | leave (who : Nat)
  | take (most : Nat)
  | close
deriving DecidableEq, Repr

/-- The mailbox after others have done something to it. -/
def stirred (box : Mailbox α) : Stir α → Mailbox α
  | .put who item => (box.put (who.map .other) item).2
  | .leave who => box.leave (.other who)
  | .take most => (box.take most).2
  | .close => box.close

section Stirred

variable {box : Mailbox α} {party : Party}

theorem approached_put (box : Mailbox α) (who : Option Nat) (item : α) :
    box.Approached (box.put (who.map .other) item).2 := by
  cases who with
  | none => exact .offered item
  | some number => exact .sent rfl item

/-- A receiver that is gone stays so. -/
theorem shut_stirred {stir : Stir α} (shut : box.isOpen = false) :
    (box.stirred stir).isOpen = false := by
  cases stir with
  | put who item => exact (box.approached_put who item).isOpen.trans shut
  | leave who => exact shut
  | take most => exact shut
  | close => rfl

theorem mem_line_stirred {stir : Stir α} (inside : party.isOutside = false)
    (waits : party ∈ box.line) : party ∈ (box.stirred stir).line := by
  cases stir with
  | put who item => exact (box.approached_put who item).mem_line inside waits
  | leave who =>
      have left : box.Approached (box.leave (.other who)) := .left rfl
      exact left.mem_line inside waits
  | take most => exact waits
  | close => exact waits

/-- Room that is there for somebody in line stays, unless the receiver goes away. -/
theorem hasPlace_stirred (stir : Stir α) (inside : party.isOutside = false)
    (waits : party ∈ box.line) (place : box.HasPlace party) :
    (box.stirred stir).HasPlace party ∨ (box.stirred stir).isOpen = false := by
  cases stir with
  | put who item => exact .inl ((box.approached_put who item).hasPlace inside waits place)
  | leave who =>
      have left : box.Approached (box.leave (.other who)) := .left rfl
      exact .inl (left.hasPlace inside waits place)
  | take most =>
      refine .inl ⟨place.1, ?_⟩
      have room := place.2
      simp only [hasRoom, decide_eq_true_eq] at room ⊢
      simp only [stirred, Mailbox.take, List.length_drop]
      omega
  | close => exact .inr rfl

end Stirred

end PeerWire.Mailbox

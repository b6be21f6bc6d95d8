/-!
Bounded channels. A mailbox holds up to `capacity` items, oldest first. A party that
finds no room may wait in line; room that comes free belongs to whoever is first in
line, so a newcomer is accepted only when there is room for everybody ahead of it too.
A mailbox whose receiver is gone accepts nothing and holds nothing.
-/

namespace PeerWire

/-- Who may wait for room in a mailbox. -/
inductive Party where
  | reader
  /-- A call that tears the connection down, by number. -/
  | caller (number : Nat)
  | scheduler
  /-- Anybody else who shares the mailbox, by number. -/
  | other (number : Nat)
deriving DecidableEq, Repr, Inhabited

/-- Whether the party is not a part of the connection itself. -/
def Party.isOutside : Party → Bool
  | .reader | .caller _ => false
  | .scheduler | .other _ => true

/-- What became of an item that was to be put into a mailbox. -/
inductive Receipt where
  | accepted
  | full
  | closed
deriving DecidableEq, Repr, Inhabited

/-- A bounded channel. -/
structure Mailbox (α : Type) where
  capacity : Nat
  items : List α := []
  line : List Party := []
  isOpen : Bool := true
deriving DecidableEq, Repr, Inhabited

namespace Mailbox

variable {α : Type}

/-- An empty mailbox. -/
def ofCapacity (capacity : Nat) : Mailbox α where
  capacity

/-- Whether there is room when `ahead` others go first. -/
def hasRoom (box : Mailbox α) (ahead : Nat) : Bool :=
  box.items.length + ahead < box.capacity

/-- Appends an item. -/
def push (box : Mailbox α) (item : α) : Mailbox α :=
  { box with items := box.items ++ [item] }

/-- The party leaves the line. -/
def leave (box : Mailbox α) (party : Party) : Mailbox α :=
  { box with line := box.line.erase party }

/-- The party waits in line, at its end if it did not wait already. -/
def join (box : Mailbox α) (party : Party) : Mailbox α :=
  if party ∈ box.line then box else { box with line := box.line ++ [party] }

/-- Puts an item in without waiting, behind everybody in line. -/
def offer (box : Mailbox α) (item : α) : Receipt × Mailbox α :=
  if !box.isOpen then (.closed, box)
  else if box.hasRoom box.line.length then (.accepted, box.push item)
  else (.full, box)

/-- The party puts an item in when it is its turn, and waits in line otherwise. -/
def send (box : Mailbox α) (party : Party) (item : α) : Receipt × Mailbox α :=
  if !box.isOpen then (.closed, box.leave party)
  else if box.hasRoom (box.line.idxOf party) then (.accepted, (box.leave party).push item)
  else (.full, box.join party)

/-- Takes up to `most` items out, oldest first. -/
def take (box : Mailbox α) (most : Nat) : List α × Mailbox α :=
  (box.items.take most, { box with items := box.items.drop most })

/-- Takes everything out. -/
def takeAll (box : Mailbox α) : List α × Mailbox α :=
  box.take box.items.length

/-- The receiver goes away, and what was not taken with it. -/
def close (box : Mailbox α) : Mailbox α :=
  { box with items := [], isOpen := false }

end Mailbox

end PeerWire

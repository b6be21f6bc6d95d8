import PeerWire.Proofs.Conversation
import PeerWire.Proofs.Message.Chunking

/-!
A byte string, walked frame by frame. `Stream.walk` stops at the first event that ends a
connection: a frame that cannot be read, a message that is rejected, or the end of the
string, in the middle of a frame or not. It says which messages were acted on before, and
which ending the event gives. `Leads` is what a reader knows that has come some way: what
is left decides the rest of the walk, whatever is still to arrive.
-/

namespace PeerWire.Stream

/-- Walks a byte string up to the first event that ends the connection. -/
def walk (limit : Nat) (pieces : UInt64) (bytes : List UInt8) : List Message × Ending :=
  match found : next limit bytes with
  | .refused failure => ([], .protocol ("decode: " ++ failure.message))
  | .more _ =>
      if bytes.isEmpty then ([], .streamClosed)
      else ([], .io "read: bytes remaining on stream")
  | .message message rest =>
      match message.rejection? pieces with
      | some fault => ([], .protocol fault.message)
      | none =>
          have := length_lt_of_next found
          let (messages, ending) := walk limit pieces rest
          (message :: messages, ending)
termination_by bytes.length

section Walk

variable {limit : Nat} {pieces : UInt64} {bytes rest : List UInt8} {message : Message}

theorem walk_of_refused {failure : Failure} (refused : next limit bytes = .refused failure) :
    walk limit pieces bytes = ([], .protocol ("decode: " ++ failure.message)) := by
  rw [walk.eq_def]
  split <;> simp_all

theorem walk_of_more {room : Nat} (needs : next limit bytes = .more room) :
    walk limit pieces bytes =
      ([], if bytes.isEmpty then .streamClosed else .io "read: bytes remaining on stream") := by
  rw [walk.eq_def]
  split
  · simp_all
  · split <;> rfl
  · simp_all

theorem walk_of_rejected {fault : PeerFault} (found : next limit bytes = .message message rest)
    (rejected : message.rejection? pieces = some fault) :
    walk limit pieces bytes = ([], .protocol fault.message) := by
  rw [walk.eq_def]
  split
  · simp_all
  · simp_all
  · rename_i other rest' found'
    rw [found] at found'
    cases found'
    split <;> simp_all

theorem walk_of_accepted (found : next limit bytes = .message message rest)
    (accepted : message.rejection? pieces = none) :
    walk limit pieces bytes =
      (message :: (walk limit pieces rest).1, (walk limit pieces rest).2) := by
  rw [walk.eq_def]
  split
  · simp_all
  · simp_all
  · rename_i other rest' found'
    rw [found] at found'
    cases found'
    split
    · simp_all
    · rfl

end Walk

/-- Whatever is still to arrive behind the bytes, the walk acts on the messages first and
goes on with what is left. -/
def Leads (limit : Nat) (pieces : UInt64) (bytes : List UInt8) (messages : List Message)
    (left : List UInt8) : Prop :=
  ∀ more, walk limit pieces (bytes ++ more) =
    (messages ++ (walk limit pieces (left ++ more)).1, (walk limit pieces (left ++ more)).2)

namespace Leads

variable {limit : Nat} {pieces : UInt64} {bytes left rest : List UInt8} {messages : List Message}
  {message : Message}

theorem refl (limit : Nat) (pieces : UInt64) (bytes : List UInt8) :
    Leads limit pieces bytes [] bytes := fun _ => rfl

/-- More bytes arrive. -/
theorem arrive (leads : Leads limit pieces bytes messages left) (arrived : List UInt8) :
    Leads limit pieces (bytes ++ arrived) messages (left ++ arrived) := by
  intro more
  rw [List.append_assoc, List.append_assoc]
  exact leads (arrived ++ more)

/-- A message is read and acted on. -/
theorem read (leads : Leads limit pieces bytes messages left)
    (found : next limit left = .message message rest)
    (accepted : message.rejection? pieces = none) :
    Leads limit pieces bytes (messages ++ [message]) rest := by
  intro more
  rw [leads more, walk_of_accepted (next_append_message found more) accepted]
  simp

/-- A message is read and rejected. -/
theorem reject {fault : PeerFault} (leads : Leads limit pieces bytes messages left)
    (found : next limit left = .message message rest)
    (rejected : message.rejection? pieces = some fault) (more : List UInt8) :
    walk limit pieces (bytes ++ more) = (messages, .protocol fault.message) := by
  rw [leads more, walk_of_rejected (next_append_message found more) rejected, List.append_nil]

/-- A frame cannot be read. -/
theorem refuse {failure : Failure} (leads : Leads limit pieces bytes messages left)
    (refused : next limit left = .refused failure) (more : List UInt8) :
    walk limit pieces (bytes ++ more) =
      (messages, .protocol ("decode: " ++ failure.message)) := by
  rw [leads more, walk_of_refused (next_append_refused refused more), List.append_nil]

/-- Nothing more arrives, and no whole frame is left. -/
theorem finish {room : Nat} (leads : Leads limit pieces bytes messages left)
    (needs : next limit left = .more room) :
    walk limit pieces bytes = (messages,
      if left.isEmpty then .streamClosed else .io "read: bytes remaining on stream") := by
  have whole := leads []
  rw [List.append_nil, List.append_nil] at whole
  rw [whole, walk_of_more needs, List.append_nil]

end Leads

end PeerWire.Stream

import PeerWire.Proofs.Message.Grammar

/-!
What a buffer can hold back. Every message that is taken off a buffer takes its frame with it, four
bytes at least, so taking messages comes to an end, and what is left is the buffer without their
frames. Where it ends for want of bytes, the frame that is not all there is no longer than the limit
allows: a longer one is refused as soon as its length field is there. A peer can therefore keep no
more bytes undecoded than a frame of the greatest length has, whatever it announces, and no more
room is asked for than such a frame takes.
-/

namespace PeerWire.Stream

open PeerWire.Frame

/-- Asking the buffer again and again gives these messages and leaves this. -/
inductive Takes (limit : Nat) : List UInt8 → List Message → List UInt8 → Prop where
  | none (buffer : List UInt8) : Takes limit buffer [] buffer
  | next {buffer rest left : List UInt8} {message : Message} {messages : List Message}
      (found : next limit buffer = .message message rest) (later : Takes limit rest messages left) :
      Takes limit buffer (message :: messages) left

variable {limit : Nat} {buffer rest left : List UInt8}

/-! ### One frame -/

/-- A buffer that is asked for a message gives what its front is read as. -/
theorem ofParse_of_next {answer : Next} (asked : next limit buffer = answer)
    (accepted : ∀ failure, answer ≠ .refused failure) :
    next.ofParse buffer = answer ∧ ∀ length, announced? buffer = some length → length ≤ limit := by
  unfold next at asked
  split at asked
  · rename_i length announced
    split at asked
    · exact absurd asked.symm (accepted _)
    · rename_i within
      refine ⟨asked, ?_⟩
      intro other announced'
      rw [announced] at announced'
      cases announced'
      exact Nat.not_lt.mp within
  · rename_i unannounced
    exact ⟨asked, fun _ announced => absurd (unannounced ▸ announced) nofun⟩

/-- A message leaves with its frame. -/
theorem eq_append_of_next {message : Message} (found : next limit buffer = .message message rest) :
    buffer = encode message ++ rest := by
  obtain ⟨read, -⟩ := ofParse_of_next found nofun
  unfold next.ofParse at read
  split at read <;> try contradiction
  rename_i used message' parsed
  cases read
  obtain ⟨-, behind, front, size⟩ := eq_append_of_parse parsed
  rw [front, size, List.drop_left]

/-- A frame that is not all there is within the limit, and so is the room it needs. -/
theorem bounds_of_more {room : Nat} (more : next limit buffer = .more room) :
    buffer.length < 4 + limit ∧ buffer.length + room ≤ 4 + limit := by
  obtain ⟨read, within⟩ := ofParse_of_next more nofun
  unfold next.ofParse at read
  cases announced : announced? buffer with
  | none =>
      have few := announced?_eq_none_iff.mp announced
      rw [parse_of_short few] at read
      cases read
      omega
  | some length =>
      have within := within length announced
      have view := front announced
      generalize parse buffer = outcome at read view
      cases view with
      | partly present missing =>
          cases read
          omega
      | empty | misfit | message => contradiction

/-- The missing bytes are counted from what is there, and there are some. -/
theorem available_lt_needed {needed available : Nat}
    (partly : parse buffer = .error (.frame (.incomplete needed available))) :
    available = buffer.length ∧ available < needed := by
  cases announced : announced? buffer with
  | none =>
      rw [parse_of_short (announced?_eq_none_iff.mp announced)] at partly
      cases partly
  | some length =>
      obtain ⟨rfl, rfl, -, missing⟩ := ((front announced).incomplete_iff _ _).mp partly
      exact ⟨rfl, missing⟩

/-! ### One frame after the other -/

theorem Takes.eq_append {messages : List Message} (takes : Takes limit buffer messages left) :
    buffer = (messages.map encode).flatten ++ left := by
  induction takes with
  | none buffer => rfl
  | next found later ih =>
      rw [List.map_cons, List.flatten_cons, List.append_assoc, ← ih]
      exact eq_append_of_next found

/-- Each frame takes its length field with it. -/
theorem Takes.four_mul_length_le {messages : List Message}
    (takes : Takes limit buffer messages left) :
    4 * messages.length + left.length ≤ buffer.length := by
  induction takes with
  | none buffer => simp
  | next found later ih =>
      have size := congrArg List.length (eq_append_of_next found)
      rw [List.length_append, length_encode] at size
      rw [List.length_cons]
      omega

theorem takes_drain (limit : Nat) (buffer : List UInt8) :
    Takes limit buffer (drain limit buffer).1 (drain limit buffer).2.2 := by
  induction buffer using drain_induction limit with
  | message buffer message rest found ih =>
      rw [drain_of_message found]
      exact .next found ih
  | more buffer room more =>
      rw [drain_of_more more]
      exact .none buffer
  | refused buffer failure refused =>
      rw [drain_of_refused refused]
      exact .none buffer

/-- Whoever has taken some messages gets the others from what is left. -/
theorem Takes.drain_eq {messages : List Message} (takes : Takes limit buffer messages left) :
    drain limit buffer = (messages ++ (drain limit left).1, (drain limit left).2) := by
  induction takes with
  | none buffer => rfl
  | next found later ih =>
      rw [drain_of_message found, ih]
      rfl

/-- What is left gives no message, for the reason that taking messages stopped. -/
theorem next_drained (limit : Nat) (buffer : List UInt8) :
    next limit (drain limit buffer).2.2 = match (drain limit buffer).2.1 with
      | .more room => .more room
      | .refused failure => .refused failure := by
  induction buffer using drain_induction limit with
  | message buffer message rest found ih =>
      rw [drain_of_message found]
      exact ih
  | more buffer room more =>
      rw [drain_of_more more]
      exact more
  | refused buffer failure refused =>
      rw [drain_of_refused refused]
      exact refused

/-- Undecoded input is bounded, and taking messages off a buffer ends.

However far it is asked, a buffer gives one message for every four of its bytes at most, and what
it then holds is what it held without the frames of these messages. Asked until it gives none, it
either waits for bytes or has refused a frame. While it waits, it holds less than a frame of the
greatest length takes, and with the room it asks for it would hold no more than that. After a
refusal it holds the refused frame and all that came behind it, and refuses it again. The room is
the difference between the bytes that are needed and those that are there, which are fewer. -/
theorem drained_within_bounds (limit : Nat) (buffer : List UInt8) :
    (∀ messages left, Takes limit buffer messages left →
      messages.length ≤ buffer.length / 4 ∧
        buffer = (messages.map encode).flatten ++ left ∧
        messages <+: (drain limit buffer).1) ∧
    Takes limit buffer (drain limit buffer).1 (drain limit buffer).2.2 ∧
    (∀ room, (drain limit buffer).2.1 = .more room →
      next limit (drain limit buffer).2.2 = .more room ∧
        (drain limit buffer).2.2.length < 4 + limit ∧
        (drain limit buffer).2.2.length + room ≤ 4 + limit) ∧
    (∀ failure, (drain limit buffer).2.1 = .refused failure →
      next limit (drain limit buffer).2.2 = .refused failure) ∧
    ∀ bytes needed available, parse bytes = .error (.frame (.incomplete needed available)) →
      available = bytes.length ∧ available < needed := by
  have last := next_drained limit buffer
  refine ⟨?_, takes_drain limit buffer, ?_, ?_, fun _ _ _ => available_lt_needed⟩
  · intro messages left takes
    have least := takes.four_mul_length_le
    refine ⟨by omega, takes.eq_append, ?_⟩
    rw [takes.drain_eq]
    exact List.prefix_append _ _
  · intro room stop
    rw [stop] at last
    exact ⟨last, bounds_of_more last⟩
  · intro failure stop
    rw [stop] at last
    exact last

/-- A length field that announces the greatest length asks for all of the frame behind it. -/
example : next 16 [0, 0, 0, 16] = .more 16 := by decide

end PeerWire.Stream

import PeerWire.Proofs.Message.Refusal

/-!
How a byte string is cut into pieces on its way does not show in what is read. What the
front of a buffer holds, a message or a refusal, stays what it is when more bytes
arrive; only an answer that more is needed can change. Reading a buffer as far as it
goes, and going on once more has arrived, therefore gives the messages and the ending of
reading everything at once.
-/

namespace PeerWire

namespace Frame

theorem announced?_append {bytes : List UInt8} {length : Nat} (more : List UInt8)
    (announced : announced? bytes = some length) : announced? (bytes ++ more) = some length := by
  match bytes, announced with
  | a :: b :: c :: d :: body, announced => exact announced

/-- Bytes after a whole frame do not matter. -/
theorem parse_append {bytes : List UInt8} (whole : IsWhole bytes) (more : List UInt8) :
    parse (bytes ++ more) = parse bytes := by
  obtain ⟨length, announced, enough⟩ := whole
  match bytes, announced with
  | a :: b :: c :: d :: body, announced =>
      simp only [announced?, BigEndian.take32, Option.map_some, Option.some.injEq] at announced
      simp only [List.length_cons] at enough
      simp only [parse, List.cons_append, announced]
      by_cases none : length = 0
      · rw [if_pos none, if_pos none]
      · have room : ¬ body.length < length := by omega
        have room' : ¬ (body ++ more).length < length := by
          simp only [List.length_append]; omega
        have front : (body ++ more).headD 0 = body.headD 0 := by
          cases body with
          | nil => simp only [List.length_nil] at room; omega
          | cons id rest => rfl
        have frame : List.take (4 + length) (a :: b :: c :: d :: (body ++ more)) =
            List.take (4 + length) (a :: b :: c :: d :: body) := by
          rw [← List.cons_append, ← List.cons_append, ← List.cons_append, ← List.cons_append]
          exact List.take_append_of_le_length (by simp only [List.length_cons]; omega)
        rw [if_neg none, if_neg none, if_neg room, if_neg room', front, frame]

end Frame

namespace Stream

open PeerWire.Frame

/-! ### More bytes behind the front -/

theorem ofParse_append_message {buffer rest : List UInt8} {message : Message}
    (found : next.ofParse buffer = .message message rest) (more : List UInt8) :
    next.ofParse (buffer ++ more) = .message message (rest ++ more) := by
  by_cases whole : IsWhole buffer
  · unfold next.ofParse at found ⊢
    rw [parse_append whole]
    rcases parse_of_whole whole with ⟨used, read, parsed⟩ | ⟨text, parsed⟩
    · rw [parsed] at found ⊢
      cases found
      simp only [List.drop_append_of_le_length (parse_bounds parsed).2]
    · rw [parsed] at found
      contradiction
  · obtain ⟨room, needs⟩ := ofParse_of_not_whole whole
    rw [needs] at found
    contradiction

theorem ofParse_append_refused {buffer : List UInt8} {failure : Failure}
    (refused : next.ofParse buffer = .refused failure) (more : List UInt8) :
    next.ofParse (buffer ++ more) = .refused failure := by
  by_cases whole : IsWhole buffer
  · unfold next.ofParse at refused ⊢
    rw [parse_append whole]
    rcases parse_of_whole whole with ⟨used, read, parsed⟩ | ⟨text, parsed⟩
    · rw [parsed] at refused
      contradiction
    · rw [parsed] at refused ⊢
      exact refused
  · obtain ⟨room, needs⟩ := ofParse_of_not_whole whole
    rw [needs] at refused
    contradiction

/-- A buffer that gives anything but `more` announces a length. -/
theorem announced?_of_ofParse (buffer : List UInt8)
    (decided : ∀ room, next.ofParse buffer ≠ .more room) :
    ∃ length, announced? buffer = some length := by
  by_contra absent
  have partly : ¬ IsWhole buffer := fun ⟨length, announced, _⟩ => absent ⟨length, announced⟩
  obtain ⟨room, needs⟩ := ofParse_of_not_whole partly
  exact decided room needs

/-- A message at the front stays there when more bytes arrive. -/
theorem next_append_message {limit : Nat} {buffer rest : List UInt8} {message : Message}
    (found : next limit buffer = .message message rest) (more : List UInt8) :
    next limit (buffer ++ more) = .message message (rest ++ more) := by
  unfold next at found ⊢
  split at found
  · rename_i length announced
    rw [announced?_append more announced]
    split at found
    · contradiction
    · rename_i within
      simp only [if_neg within]
      exact ofParse_append_message found more
  · rename_i absent
    obtain ⟨length, announced⟩ := announced?_of_ofParse buffer (by simp [found])
    rw [announced] at absent
    contradiction

/-- A refusal stays a refusal, and the same one, when more bytes arrive. -/
theorem next_append_refused {limit : Nat} {buffer : List UInt8} {failure : Failure}
    (refused : next limit buffer = .refused failure) (more : List UInt8) :
    next limit (buffer ++ more) = .refused failure := by
  unfold next at refused ⊢
  split at refused
  · rename_i length announced
    rw [announced?_append more announced]
    split at refused
    · rename_i above
      simp only [if_pos above]
      exact refused
    · rename_i within
      simp only [if_neg within]
      exact ofParse_append_refused refused more
  · rename_i absent
    obtain ⟨length, announced⟩ := announced?_of_ofParse buffer (by simp [refused])
    rw [announced] at absent
    contradiction

/-! ### Reading a buffer as far as it goes -/

theorem drain_of_message {limit : Nat} {buffer rest : List UInt8} {message : Message}
    (found : next limit buffer = .message message rest) :
    drain limit buffer =
      (message :: (drain limit rest).1, (drain limit rest).2.1, (drain limit rest).2.2) := by
  rw [drain.eq_def]
  split
  · rename_i other rest' found'
    rw [found] at found'
    cases found'
    rfl
  · rename_i room needs
    rw [found] at needs
    contradiction
  · rename_i failure refused
    rw [found] at refused
    contradiction

theorem drain_of_more {limit room : Nat} {buffer : List UInt8}
    (needs : next limit buffer = .more room) : drain limit buffer = ([], .more room, buffer) := by
  rw [drain.eq_def]
  split
  · rename_i found
    rw [needs] at found
    contradiction
  · rename_i room' needs'
    rw [needs] at needs'
    cases needs'
    rfl
  · rename_i refused
    rw [needs] at refused
    contradiction

theorem drain_of_refused {limit : Nat} {buffer : List UInt8} {failure : Failure}
    (refused : next limit buffer = .refused failure) :
    drain limit buffer = ([], .refused failure, buffer) := by
  rw [drain.eq_def]
  split
  · rename_i found
    rw [refused] at found
    contradiction
  · rename_i needs
    rw [refused] at needs
    contradiction
  · rename_i failure' refused'
    rw [refused] at refused'
    cases refused'
    rfl

/-- Induction along the messages at the front of a buffer. -/
theorem drain_induction (limit : Nat) {motive : List UInt8 → Prop}
    (message : ∀ buffer message rest, next limit buffer = .message message rest →
      motive rest → motive buffer)
    (more : ∀ buffer room, next limit buffer = .more room → motive buffer)
    (refused : ∀ buffer failure, next limit buffer = .refused failure → motive buffer)
    (buffer : List UInt8) : motive buffer := by
  induction size : buffer.length using Nat.strongRecOn generalizing buffer with
  | ind size ih =>
      cases front : next limit buffer with
      | message m rest =>
          have shorter := length_lt_of_next front
          exact message buffer m rest front (ih rest.length (by omega) rest rfl)
      | more room => exact more buffer room front
      | refused failure => exact refused buffer failure front

/-- After a refusal more bytes change nothing but what is left unread. -/
theorem drain_append_of_refused {limit : Nat} {buffer : List UInt8} {failure : Failure}
    (more : List UInt8) (stop : (drain limit buffer).2.1 = .refused failure) :
    drain limit (buffer ++ more) =
      ((drain limit buffer).1, .refused failure, (drain limit buffer).2.2 ++ more) := by
  induction buffer using drain_induction limit with
  | message buffer m rest found ih =>
      simp only [drain_of_message found] at stop ⊢
      rw [drain_of_message (next_append_message found more), ih stop]
  | more buffer room needs =>
      rw [drain_of_more needs] at stop
      contradiction
  | refused buffer other refused =>
      rw [drain_of_refused refused] at stop ⊢
      cases stop
      exact drain_of_refused (next_append_refused refused more)

/-- Where more was needed, reading goes on with what was left and what has arrived. -/
theorem drain_append_of_more {limit room : Nat} {buffer : List UInt8} (more : List UInt8)
    (stop : (drain limit buffer).2.1 = .more room) :
    drain limit (buffer ++ more) =
      ((drain limit buffer).1 ++ (drain limit ((drain limit buffer).2.2 ++ more)).1,
        (drain limit ((drain limit buffer).2.2 ++ more)).2) := by
  induction buffer using drain_induction limit with
  | message buffer m rest found ih =>
      simp only [drain_of_message found] at stop ⊢
      rw [drain_of_message (next_append_message found more), ih stop]
      rfl
  | more buffer room' needs => rw [drain_of_more needs]; rfl
  | refused buffer failure refused =>
      rw [drain_of_refused refused] at stop
      contradiction

/-! ### Chunks -/

/-- How a stream ends whose buffer was read as far as it goes. -/
def ending (stop : Stop) (left : List UInt8) : Option Failure :=
  match stop with
  | .refused failure => some failure
  | .more _ => if left.isEmpty then none else some .bytesRemaining

theorem go_nil (limit : Nat) (buffer : List UInt8) :
    read.go limit buffer [] =
      ((drain limit buffer).1, ending (drain limit buffer).2.1 (drain limit buffer).2.2) := by
  simp only [read.go]
  cases stop : (drain limit buffer).2.1 with
  | refused failure => rfl
  | more room => cases left : (drain limit buffer).2.2.isEmpty <;> simp [ending, left]

theorem go_cons_of_refused {limit : Nat} {buffer chunk : List UInt8} {failure : Failure}
    (chunks : List (List UInt8)) (stop : (drain limit (buffer ++ chunk)).2.1 = .refused failure) :
    read.go limit buffer (chunk :: chunks) =
      ((drain limit (buffer ++ chunk)).1, some failure) := by
  simp only [read.go, stop]

theorem go_cons_of_more {limit room : Nat} {buffer chunk : List UInt8}
    (chunks : List (List UInt8)) (stop : (drain limit (buffer ++ chunk)).2.1 = .more room) :
    read.go limit buffer (chunk :: chunks) =
      ((drain limit (buffer ++ chunk)).1 ++
          (read.go limit (drain limit (buffer ++ chunk)).2.2 chunks).1,
        (read.go limit (drain limit (buffer ++ chunk)).2.2 chunks).2) := by
  simp only [read.go, stop]

/-- Chunks that are still to come may as well be there already. -/
theorem go_eq_go_nil (limit : Nat) (chunks : List (List UInt8)) (buffer : List UInt8) :
    read.go limit buffer chunks = read.go limit (buffer ++ chunks.flatten) [] := by
  induction chunks generalizing buffer with
  | nil => simp
  | cons chunk chunks ih =>
      rw [List.flatten_cons, ← List.append_assoc]
      cases stop : (drain limit (buffer ++ chunk)).2.1 with
      | refused failure =>
          rw [go_cons_of_refused chunks stop, go_nil,
            drain_append_of_refused chunks.flatten stop]
          rfl
      | more room =>
          rw [go_cons_of_more chunks stop, ih, go_nil, go_nil,
            drain_append_of_more chunks.flatten stop]

/-- How a byte string is cut does not show: the same messages are read, and the stream
ends in the same way, as when the string comes in one piece. A buffer that is refused
stays as it is, and is refused for the same failure whatever comes behind it. -/
theorem read_eq_read_flatten (limit : Nat) :
    (∀ chunks, read limit chunks = read limit [chunks.flatten]) ∧
    ∀ buffer failure, next limit buffer = .refused failure →
      ∀ more, next limit (buffer ++ more) = .refused failure ∧
        drain limit (buffer ++ more) = ([], .refused failure, buffer ++ more) := by
  constructor
  · intro chunks
    unfold read
    rw [go_eq_go_nil limit chunks, go_eq_go_nil limit [chunks.flatten]]
    simp
  · intro buffer failure refused more
    have still := next_append_refused refused more
    exact ⟨still, drain_of_refused still⟩

/-- An announced length above the limit is refused, whatever follows it. -/
theorem read_eq_read_flatten_tooLarge :
    next 4 [0, 0, 0, 9] = .refused (.frame (.tooLarge 9 4)) ∧
      ∀ more, next 4 ([0, 0, 0, 9] ++ more) = .refused (.frame (.tooLarge 9 4)) := by
  have refused : next 4 [0, 0, 0, 9] = .refused (.frame (.tooLarge 9 4)) := by decide
  refine ⟨refused, ?_⟩
  intro more
  exact ((read_eq_read_flatten 4).2 _ _ refused more).1

end Stream

end PeerWire

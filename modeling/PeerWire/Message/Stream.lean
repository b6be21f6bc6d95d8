import PeerWire.Message.Frame

/-!
Messages out of a stream of bytes that arrives in pieces. A buffer holds what has
arrived and is not read yet; `Stream.next` looks at its front. A frame whose
announced length exceeds the limit is refused as soon as the length is there, and
a refused frame stays in the buffer, so asking again gives the same refusal.
-/

namespace PeerWire.Stream

/-- What the front of the buffer holds. -/
inductive Next where
  /-- A message, and the buffer after it. -/
  | message (message : Message) (rest : List UInt8)
  /-- Not a whole frame yet; `room` more bytes are known to be missing. -/
  | more (room : Nat)
  | refused (failure : Failure)
deriving DecidableEq, Repr

/-- Reads one message off the buffer. -/
def next (limit : Nat) (buffer : List UInt8) : Next :=
  match Frame.announced? buffer with
  | some length =>
      if length > limit then .refused (.frame (.tooLarge length limit))
      else ofParse buffer
  | none => ofParse buffer
where
  /-- Missing bytes are no failure of a stream. -/
  ofParse (buffer : List UInt8) : Next :=
    match Frame.parse buffer with
    | .ok (used, message) => .message message (buffer.drop used)
    | .error (.frame (.incomplete needed available)) => .more (needed - available)
    | .error (.frame (.tooShort _)) => .more 0
    | .error failure => .refused failure

/-- What the front of the buffer holds once no more bytes will come. -/
inductive Last where
  | message (message : Message) (rest : List UInt8)
  | clean
  | refused (failure : Failure)
deriving DecidableEq, Repr

/-- Reads one message off the buffer of a stream that has ended. -/
def finish (limit : Nat) (buffer : List UInt8) : Last :=
  match next limit buffer with
  | .message message rest => .message message rest
  | .refused failure => .refused failure
  | .more _ => if buffer.isEmpty then .clean else .refused .bytesRemaining

/-- Reading a message shortens the buffer. -/
theorem length_lt_of_next {limit : Nat} {buffer rest : List UInt8} {message : Message}
    (found : next limit buffer = .message message rest) : rest.length < buffer.length := by
  have ofParse : ∀ {buffer : List UInt8}, next.ofParse buffer = .message message rest →
      rest.length < buffer.length := by
    intro buffer found
    unfold next.ofParse at found
    split at found <;> try contradiction
    rename_i used message' parsed
    cases found
    have bounds := Frame.parse_bounds parsed
    simp only [List.length_drop]
    omega
  unfold next at found
  split at found
  · split at found
    · contradiction
    · exact ofParse found
  · exact ofParse found

/-- How reading a buffer as far as possible stops. -/
inductive Stop where
  | more (room : Nat)
  | refused (failure : Failure)
deriving DecidableEq, Repr

/-- Reads messages off the buffer until it gives none: the messages, why it
stopped, and what is left. -/
def drain (limit : Nat) (buffer : List UInt8) : List Message × Stop × List UInt8 :=
  match found : next limit buffer with
  | .message message rest =>
      have := length_lt_of_next found
      let (messages, stop, left) := drain limit rest
      (message :: messages, stop, left)
  | .more room => ([], .more room, buffer)
  | .refused failure => ([], .refused failure, buffer)
termination_by buffer.length

/-- The messages of a stream that arrives in the given chunks and then ends,
and the failure that ended it early, if one did. -/
def read (limit : Nat) (chunks : List (List UInt8)) : List Message × Option Failure :=
  go [] chunks
where
  /-- Reads on with a buffer left over from earlier chunks. -/
  go (buffer : List UInt8) : List (List UInt8) → List Message × Option Failure
    | [] =>
        let (messages, stop, left) := drain limit buffer
        match stop with
        | .refused failure => (messages, some failure)
        | .more _ =>
            if left.isEmpty then (messages, none) else (messages, some .bytesRemaining)
    | chunk :: chunks =>
        let (messages, stop, left) := drain limit (buffer ++ chunk)
        match stop with
        | .refused failure => (messages, some failure)
        | .more _ =>
            let (later, ending) := go left chunks
            (messages ++ later, ending)

end PeerWire.Stream

import Mathlib.Tactic.Common
import PeerWire.Message.Stream

/-!
What can be wrong with the frame at the front of a byte string. A whole frame is either
read or malformed: its size is checked before its fields are looked at, so no field
reader ever runs short or finds bytes left over. A frame that is not whole is no
failure of a stream. A refusal of a stream is therefore always one of two faults of the
framing, a length above the limit or a malformed frame.
-/

namespace PeerWire

namespace Frame

/-- The frame at the front is all there. -/
def IsWhole (bytes : List UInt8) : Prop :=
  ∃ length, announced? bytes = some length ∧ 4 + length ≤ bytes.length

/-! ### The field readers of a frame of the right size -/

theorem field32_of_length (payload : List UInt8) (long : 4 ≤ payload.length) :
    ∃ word, field32 payload = .ok (word, payload.drop 4) := by
  match payload, long with
  | a :: b :: c :: d :: rest, _ => exact ⟨_, rfl⟩

theorem field16_of_length (payload : List UInt8) (long : 2 ≤ payload.length) :
    ∃ word, field16 payload = .ok (word, payload.drop 2) := by
  match payload, long with
  | a :: b :: rest, _ => exact ⟨_, rfl⟩

theorem readRef_of_length (payload : List UInt8) (fits : payload.length = 12) :
    ∃ ref, readRef payload = .ok ref := by
  obtain ⟨piece, first⟩ := field32_of_length payload (by omega)
  obtain ⟨offset, second⟩ := field32_of_length (payload.drop 4)
    (by simp only [List.length_drop]; omega)
  obtain ⟨length, third⟩ := field32_of_length ((payload.drop 4).drop 4)
    (by simp only [List.length_drop]; omega)
  have all : (((payload.drop 4).drop 4).drop 4).isEmpty = true := by
    simp [fits]
  refine ⟨{ piece, offset, length }, ?_⟩
  simp only [readRef, first, second, third, all, bind, Except.bind, if_true]
  rfl

theorem expectLength_eq (name : String) (expected : Nat) (frame : List UInt8) :
    (frame.length = expected ∧ expectLength name expected frame = .ok ()) ∨
      ∃ text, expectLength name expected frame = .error (.frame (.malformed text)) := by
  unfold expectLength
  split
  · exact .inl ⟨‹_›, rfl⟩
  · exact .inr ⟨_, rfl⟩

/-- A whole frame gives a message or is malformed. -/
def ReadsOrMalformed (outcome : Except Failure Message) : Prop :=
  (∃ message, outcome = .ok message) ∨ ∃ text, outcome = .error (.frame (.malformed text))

/-- A reader that checks the size first and succeeds on every frame of that size. -/
theorem readsOrMalformed_of_size {name : String} {expected : Nat} {frame : List UInt8}
    {body : Except Failure Message}
    (succeeds : frame.length = expected → ∃ message, body = .ok message) :
    ReadsOrMalformed (expectLength name expected frame >>= fun _ => body) := by
  rcases expectLength_eq name expected frame with ⟨fits, checked⟩ | ⟨text, checked⟩
  · obtain ⟨message, read⟩ := succeeds fits
    exact .inl ⟨message, by rw [checked, read]; rfl⟩
  · exact .inr ⟨text, by rw [checked]; rfl⟩

theorem readBare_outcome (name : String) (message : Message) (frame : List UInt8) :
    ReadsOrMalformed (readBare name message frame) :=
  readsOrMalformed_of_size fun _ => ⟨message, rfl⟩

theorem readHave_outcome (frame : List UInt8) : ReadsOrMalformed (readHave frame) := by
  refine readsOrMalformed_of_size ?_
  intro fits
  obtain ⟨index, read⟩ := field32_of_length (frame.drop headerLength)
    (by simp only [List.length_drop, headerLength]; omega)
  exact ⟨.havePiece index, by rw [read]; rfl⟩

/-- A request and a cancel name a block in the same three words. -/
theorem readNamed_outcome (name : String) (make : BlockRef → Message) (frame : List UInt8) :
    ReadsOrMalformed do
      expectLength name 17 frame
      return make (← readRef (frame.drop headerLength)) := by
  refine readsOrMalformed_of_size ?_
  intro fits
  obtain ⟨ref, read⟩ := readRef_of_length (frame.drop headerLength)
    (by simp only [List.length_drop, headerLength]; omega)
  exact ⟨make ref, by rw [read]; rfl⟩

theorem readPort_outcome (frame : List UInt8) : ReadsOrMalformed (readPort frame) := by
  refine readsOrMalformed_of_size ?_
  intro fits
  obtain ⟨number, read⟩ := field16_of_length (frame.drop headerLength)
    (by simp only [List.length_drop, headerLength]; omega)
  exact ⟨.port number, by rw [read]; rfl⟩

theorem readPiece_outcome (frame : List UInt8) : ReadsOrMalformed (readPiece frame) := by
  unfold readPiece
  by_cases short : frame.length < 13
  · rw [if_pos short]
    exact .inr ⟨_, rfl⟩
  · rw [if_neg short]
    obtain ⟨piece, first⟩ := field32_of_length (frame.drop headerLength)
      (by simp only [List.length_drop, headerLength]; omega)
    obtain ⟨offset, second⟩ := field32_of_length ((frame.drop headerLength).drop 4)
      (by simp only [List.length_drop, headerLength]; omega)
    refine .inl ⟨.piece { piece, offset, data := ((frame.drop headerLength).drop 4).drop 4 }, ?_⟩
    simp only [first, second, pure, Except.pure, bind, Except.bind]

/-- Whatever its id, a whole frame is read or malformed. -/
theorem read_outcome (id : UInt8) (frame : List UInt8) : ReadsOrMalformed (read id frame) := by
  unfold read
  refine iteInduction (fun _ => readBare_outcome ..) fun _ => ?_
  refine iteInduction (fun _ => readBare_outcome ..) fun _ => ?_
  refine iteInduction (fun _ => readBare_outcome ..) fun _ => ?_
  refine iteInduction (fun _ => readBare_outcome ..) fun _ => ?_
  refine iteInduction (fun _ => readHave_outcome frame) fun _ => ?_
  refine iteInduction (fun _ => .inl ⟨_, rfl⟩) fun _ => ?_
  refine iteInduction (fun _ => readNamed_outcome "request" .request frame) fun _ => ?_
  refine iteInduction (fun _ => readPiece_outcome frame) fun _ => ?_
  refine iteInduction (fun _ => readNamed_outcome "cancel" .cancel frame) fun _ => ?_
  refine iteInduction (fun _ => readPort_outcome frame) fun _ => ?_
  exact .inl ⟨_, rfl⟩

/-! ### The frame at the front -/

theorem parse_of_whole {bytes : List UInt8} (whole : IsWhole bytes) :
    (∃ used message, parse bytes = .ok (used, message)) ∨
      ∃ text, parse bytes = .error (.frame (.malformed text)) := by
  obtain ⟨length, announced, enough⟩ := whole
  match bytes, announced with
  | a :: b :: c :: d :: body, announced =>
      simp only [announced?, BigEndian.take32, Option.map_some, Option.some.injEq] at announced
      simp only [List.length_cons] at enough
      unfold parse
      by_cases none : length = 0
      · exact .inl ⟨4, .keepAlive, by simp [announced, none]⟩
      · have room : ¬ body.length < length := by omega
        simp only [announced, if_neg none, if_neg room]
        rcases read_outcome (body.headD 0) (List.take (4 + length) (a :: b :: c :: d :: body)) with
          ⟨message, read⟩ | ⟨text, read⟩
        · exact .inl ⟨4 + length, message, by rw [read]; rfl⟩
        · exact .inr ⟨text, by rw [read]; rfl⟩

theorem parse_of_not_whole {bytes : List UInt8} (partly : ¬ IsWhole bytes) :
    (∃ needed available, parse bytes = .error (.frame (.incomplete needed available))) ∨
      ∃ length, parse bytes = .error (.frame (.tooShort length)) := by
  unfold parse
  split
  · rename_i a b c d body
    have short : body.length < (BigEndian.decode32 a b c d).toNat := by
      by_contra enough
      exact partly ⟨_, rfl, by simp only [List.length_cons]; omega⟩
    have announces : (BigEndian.decode32 a b c d).toNat ≠ 0 := by omega
    simp only [if_neg announces, if_pos short]
    exact .inl ⟨_, _, rfl⟩
  · exact .inr ⟨_, rfl⟩

end Frame

namespace Stream

open PeerWire.Frame

theorem ofParse_of_not_whole {buffer : List UInt8} (partly : ¬ IsWhole buffer) :
    ∃ room, next.ofParse buffer = .more room := by
  unfold next.ofParse
  rcases parse_of_not_whole partly with ⟨needed, available, parsed⟩ | ⟨length, parsed⟩
  · exact ⟨needed - available, by rw [parsed]⟩
  · exact ⟨0, by rw [parsed]⟩

theorem ofParse_refused {buffer : List UInt8} {failure : Failure}
    (refused : next.ofParse buffer = .refused failure) :
    ∃ text, failure = .frame (.malformed text) := by
  by_cases whole : IsWhole buffer
  · unfold next.ofParse at refused
    rcases parse_of_whole whole with ⟨used, message, parsed⟩ | ⟨text, parsed⟩
    · rw [parsed] at refused
      contradiction
    · rw [parsed] at refused
      cases refused
      exact ⟨text, rfl⟩
  · obtain ⟨room, more⟩ := ofParse_of_not_whole whole
    rw [more] at refused
    contradiction

/-- A stream is refused for a length above the limit or for a malformed frame. -/
theorem next_refused {limit : Nat} {buffer : List UInt8} {failure : Failure}
    (refused : next limit buffer = .refused failure) :
    (∃ length, limit < length ∧ failure = .frame (.tooLarge length limit)) ∨
      ∃ text, failure = .frame (.malformed text) := by
  unfold next at refused
  split at refused
  · rename_i length announced
    split at refused
    · rename_i above
      cases refused
      exact .inl ⟨length, above, rfl⟩
    · exact .inr (ofParse_refused refused)
  · exact .inr (ofParse_refused refused)

/-- A refusal is never the transport's failure. -/
theorem not_isTransport_of_refused {limit : Nat} {buffer : List UInt8} {failure : Failure}
    (refused : next limit buffer = .refused failure) : failure.isTransport = false := by
  rcases next_refused refused with ⟨length, _, rfl⟩ | ⟨text, rfl⟩
  · rfl
  · rfl

end Stream

end PeerWire

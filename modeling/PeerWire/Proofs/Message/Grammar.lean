import PeerWire.Proofs.Message.Access
import PeerWire.Proofs.Message.Canonical

/-!
The grammar of frames. What the reader makes of a byte string is decided by the number of bytes,
the length that the first four of them announce and the byte behind these, the id: fewer than four
bytes, the empty frame, a frame that is not all there, a whole frame whose id does not go with its
length, and a whole frame that carries a message. These five are all there is. The reader never
fails for another reason, and it never looks where nothing is.

The field readers can fail in two more ways, for a payload that ends inside of a field and for one
that goes on behind the last. A frame whose length goes with its id gives them no occasion to.
-/

namespace PeerWire

namespace Frame

open BigEndian

/-! ### Ids and lengths -/

/-- No message of this id has a frame that announces this length. -/
def Misfit (id : UInt8) (length : Nat) : Prop :=
  id ≤ MessageId.notInterested ∧ length ≠ 1 ∨
    id = MessageId.havePiece ∧ length ≠ 5 ∨
    (id = MessageId.request ∨ id = MessageId.cancel) ∧ length ≠ 13 ∨
    id = MessageId.piece ∧ length < 9 ∨
    id = MessageId.port ∧ length ≠ 3

theorem misfit_iff {id : UInt8} {length : Nat} : Misfit id length ↔
    id.toNat ≤ 3 ∧ length ≠ 1 ∨ id.toNat = 4 ∧ length ≠ 5 ∨
      (id.toNat = 6 ∨ id.toNat = 8) ∧ length ≠ 13 ∨ id.toNat = 7 ∧ length < 9 ∨
      id.toNat = 9 ∧ length ≠ 3 := by
  simp only [Misfit, UInt8.le_iff_toNat_le, ← UInt8.toNat_inj, MessageId.numbers]

section Payload

variable {id : UInt8} {payload : List UInt8} {message : Message}

theorem Carries.not_misfit (carries : Carries id payload message) :
    ¬ Misfit id (1 + payload.length) := by
  have ids := MessageId.numbers
  rw [misfit_iff]
  cases carries with
  | bitfield bits => omega
  | unknown foreign payload =>
      have beyond : 9 < id.toNat := foreign
      omega
  | _ =>
      simp only [refPayload, List.length_append, List.length_nil, length_encode32,
        length_encode16]
      omega

/-- A payload of the right length holds the fields of its message and nothing else. -/
theorem exists_carries (fits : ¬ Misfit id (1 + payload.length)) :
    ∃ message, Carries id payload message := by
  have ids := MessageId.numbers
  rw [misfit_iff] at fits
  -- Up to the last field, a message is its fields and what is left behind them.
  have bare (none : payload.length = 0) : payload = [] := List.length_eq_zero_iff.mp none
  have named (size : payload.length = 12) : ∃ ref, payload = refPayload ref := by
    obtain ⟨ref, found⟩ := readRef_of_length payload size
    exact ⟨ref, eq_of_readRef found⟩
  rcases MessageId.known_or_foreign id with rfl | rfl | rfl | rfl | rfl | rfl | rfl | rfl | rfl |
    rfl | foreign
  · obtain rfl := bare (by omega)
    exact ⟨_, .choke⟩
  · obtain rfl := bare (by omega)
    exact ⟨_, .unchoke⟩
  · obtain rfl := bare (by omega)
    exact ⟨_, .interested⟩
  · obtain rfl := bare (by omega)
    exact ⟨_, .notInterested⟩
  · obtain ⟨index, field⟩ := field32_of_length payload (by omega)
    have none : payload.drop 4 = [] := List.drop_eq_nil_iff.mpr (by omega)
    rw [eq_of_field32 field, none, List.append_nil]
    exact ⟨_, .havePiece index⟩
  · exact ⟨_, .bitfield payload⟩
  · obtain ⟨ref, rfl⟩ := named (by omega)
    exact ⟨_, .request ref⟩
  · obtain ⟨piece, first⟩ := field32_of_length payload (by omega)
    obtain ⟨offset, second⟩ := field32_of_length (payload.drop 4)
      (by rw [List.length_drop]; omega)
    rw [eq_of_field32 first, eq_of_field32 second, ← List.append_assoc]
    exact ⟨_, .piece { piece, offset, data := (payload.drop 4).drop 4 }⟩
  · obtain ⟨ref, rfl⟩ := named (by omega)
    exact ⟨_, .cancel ref⟩
  · obtain ⟨number, field⟩ := field16_of_length payload (by omega)
    have none : payload.drop 2 = [] := List.drop_eq_nil_iff.mpr (by omega)
    rw [eq_of_field16 field, none, List.append_nil]
    exact ⟨_, .port number⟩
  · exact ⟨_, .unknown foreign payload⟩

theorem Carries.ne_keepAlive (carries : Carries id payload message) : message ≠ .keepAlive := by
  rintro rfl
  cases carries

/-- A frame is read as the message it carries. -/
theorem Carries.read_eq (carries : Carries id payload message) :
    read id (ofPayload id payload) = .ok message := by
  cases carries with
  | havePiece index => exact read_have index
  | request ref => exact read_request ref
  | piece block => exact read_piece block
  | cancel ref => exact read_cancel ref
  | port number => exact read_port number
  | unknown foreign payload => exact read_unknown payload foreign
  | _ => rfl

theorem read_of_misfit (misfit : Misfit id (1 + payload.length)) :
    ∃ text, read id (ofPayload id payload) = .error (.frame (.malformed text)) := by
  rcases read_outcome id (ofPayload id payload) with ⟨message, found⟩ | malformed
  · exact absurd misfit (carries_of_read found).not_misfit
  · exact malformed

end Payload

/-! ### The frame at the front -/

section Front

variable {bytes : List UInt8} {length : Nat}

theorem announced?_eq_none_iff : announced? bytes = none ↔ bytes.length < 4 := by
  match bytes with
  | a :: b :: c :: d :: body => simp [announced?, take32]
  | [] | [_] | [_, _] | [_, _, _] => simp [announced?, take32]

theorem parse_of_short (few : bytes.length < 4) :
    parse bytes = .error (.frame (.tooShort bytes.length)) := by
  match bytes with
  | a :: b :: c :: d :: body =>
      simp only [List.length_cons] at few
      omega
  | [] | [_] | [_, _] | [_, _, _] => rfl

theorem parse_of_empty (announced : announced? bytes = some 0) :
    parse bytes = .ok (4, .keepAlive) := by
  match bytes, announced with
  | a :: b :: c :: d :: body, announced => exact if_pos (Option.some.inj announced)

theorem parse_of_missing (announced : announced? bytes = some length)
    (missing : bytes.length < 4 + length) :
    parse bytes = .error (.frame (.incomplete (4 + length) bytes.length)) := by
  match bytes, announced with
  | a :: b :: c :: d :: body, announced =>
      obtain rfl : (decode32 a b c d).toNat = length := Option.some.inj announced
      have size : (a :: b :: c :: d :: body).length = 4 + body.length := by
        simp only [List.length_cons]
        omega
      rw [size] at missing ⊢
      exact (if_neg (by omega)).trans (if_pos (by omega))

/-- A frame that is all there and not empty is an id and a payload. -/
theorem exists_front (announced : announced? bytes = some length) (present : 0 < length)
    (whole : 4 + length ≤ bytes.length) : length < 2 ^ 32 ∧
      ∃ id payload rest, bytes = ofPayload id payload ++ rest ∧ 1 + payload.length = length := by
  match bytes, announced with
  | a :: b :: c :: d :: body, announced =>
      obtain rfl : (decode32 a b c d).toNat = length := Option.some.inj announced
      simp only [List.length_cons] at whole
      have enough : (decode32 a b c d).toNat ≤ body.length := by omega
      obtain ⟨payload, rest, frame, size⟩ := exists_ofPayload_append present.ne' enough
      rw [encode32_decode32] at frame
      exact ⟨UInt32.toNat_lt _, _, payload, rest, frame, size⟩

end Front

/-- What the reader makes of a byte string that announces a frame of this length. -/
inductive Front (bytes : List UInt8) (length : Nat) : Except Failure (Nat × Message) → Prop where
  | empty (nothing : length = 0) : Front bytes length (.ok (4, .keepAlive))
  | partly (present : 0 < length) (missing : bytes.length < 4 + length) :
      Front bytes length (.error (.frame (.incomplete (4 + length) bytes.length)))
  | misfit {id : UInt8} (text : String) (present : 0 < length)
      (whole : 4 + length ≤ bytes.length) (named : bytes[4]? = some id)
      (misfit : Misfit id length) : Front bytes length (.error (.frame (.malformed text)))
  | message {id : UInt8} {message : Message} (present : 0 < length)
      (whole : 4 + length ≤ bytes.length) (named : bytes[4]? = some id)
      (fits : ¬ Misfit id length)
      (carries : Carries id ((bytes.take (4 + length)).drop headerLength) message) :
      Front bytes length (.ok (4 + length, message))

theorem front_ofPayload {id : UInt8} {payload rest : List UInt8}
    (short : 1 + payload.length < 2 ^ 32) :
    Front (ofPayload id payload ++ rest) (1 + payload.length)
      (parse (ofPayload id payload ++ rest)) := by
  have whole : 4 + (1 + payload.length) ≤ (ofPayload id payload ++ rest).length := by
    rw [List.length_append, length_ofPayload]
    omega
  have cut : (ofPayload id payload ++ rest).take (4 + (1 + payload.length)) =
      ofPayload id payload := List.take_left' (by rw [length_ofPayload]; omega)
  rw [parse_ofPayload id rest short]
  by_cases misfit : Misfit id (1 + payload.length)
  · obtain ⟨text, malformed⟩ := read_of_misfit misfit
    rw [malformed]
    exact .misfit text (by omega) whole rfl misfit
  · obtain ⟨message, carries⟩ := exists_carries misfit
    rw [carries.read_eq, Except.map, show 5 + payload.length = 4 + (1 + payload.length) by omega]
    exact .message (by omega) whole rfl misfit (by rwa [cut, drop_ofPayload])

theorem front {bytes : List UInt8} {length : Nat} (announced : announced? bytes = some length) :
    Front bytes length (parse bytes) := by
  rcases Nat.eq_zero_or_pos length with rfl | present
  · rw [parse_of_empty announced]
    exact .empty rfl
  by_cases missing : bytes.length < 4 + length
  · rw [parse_of_missing announced missing]
    exact .partly present missing
  obtain ⟨short, id, payload, rest, rfl, rfl⟩ :=
    exists_front announced present (Nat.not_lt.mp missing)
  exact front_ofPayload short

/-! ### The grammar -/

namespace Front

variable {bytes : List UInt8} {outcome : Except Failure (Nat × Message)} {length : Nat}

theorem not_tooShort (front : Front bytes length outcome) (size : Nat) :
    outcome ≠ .error (.frame (.tooShort size)) := by
  cases front <;> simp

theorem keepAlive_iff (front : Front bytes length outcome) (used : Nat) :
    outcome = .ok (used, .keepAlive) ↔ used = 4 ∧ length = 0 := by
  cases front with
  | empty nothing => simp [nothing, eq_comm]
  | partly present | misfit _ present => simp [present.ne']
  | message present _ _ _ carries => simp [present.ne', carries.ne_keepAlive]

theorem incomplete_iff (front : Front bytes length outcome) (needed available : Nat) :
    outcome = .error (.frame (.incomplete needed available)) ↔
      needed = 4 + length ∧ available = bytes.length ∧ 0 < length ∧
        bytes.length < 4 + length := by
  cases front with
  | empty nothing => simp [nothing]
  | partly present missing => simp [present, missing, eq_comm]
  | misfit _ _ whole | message _ whole => simp [whole]

theorem malformed_iff (front : Front bytes length outcome) :
    (∃ text, outcome = .error (.frame (.malformed text))) ↔
      0 < length ∧ 4 + length ≤ bytes.length ∧ ∃ id, bytes[4]? = some id ∧ Misfit id length := by
  cases front with
  | empty nothing => simp [nothing]
  | partly _ missing => simp [missing]
  | misfit text present whole named misfit => simp [present, whole, named, misfit]
  | message _ _ named fits => simp [named, fits]

/-- A whole frame whose id goes with its length is read as the message it carries. -/
theorem exists_message (front : Front bytes length outcome) (present : 0 < length)
    (whole : 4 + length ≤ bytes.length) : ∃ id, bytes[4]? = some id ∧ (¬ Misfit id length →
      ∃ message, outcome = .ok (4 + length, message) ∧
        Carries id ((bytes.take (4 + length)).drop headerLength) message) := by
  cases front with
  | empty nothing => exact absurd nothing present.ne'
  | partly _ missing => exact absurd whole (Nat.not_le.mpr missing)
  | misfit _ _ _ named misfit => exact ⟨_, named, fun fits => absurd misfit fits⟩
  | message _ _ named _ carries => exact ⟨_, named, fun _ => ⟨_, rfl, carries⟩⟩

theorem error_cases {failure : Failure} (front : Front bytes length (.error failure)) :
    (∃ needed available, failure = .frame (.incomplete needed available)) ∨
      ∃ text, failure = .frame (.malformed text) := by
  cases front with
  | partly => exact .inl ⟨_, _, rfl⟩
  | misfit text => exact .inr ⟨text, rfl⟩

end Front

/-- The reader accepts exactly the grammar of frames, and it reaches beside nothing.

Fewer than four bytes are too short. Otherwise the first four announce a length, and nothing but
the empty frame, whose length is zero, is read as a keep-alive. A frame with bytes behind its
length field is incomplete while they are not all there. Once they are, the frame is malformed if
its id does not go with its length, and if it does, it is read as the message that its payload is
for this id. The reader fails in these three ways only: no field ends early and none has bytes left
behind it. All its accesses are in range and its sums fit a machine word. -/
theorem parses_its_grammar (bytes : List UInt8) :
    (∀ size, parse bytes = .error (.frame (.tooShort size)) ↔
      size = bytes.length ∧ bytes.length < 4) ∧
    (announced? bytes = none ↔ bytes.length < 4) ∧
    (∀ length, announced? bytes = some length →
      (∀ used, parse bytes = .ok (used, .keepAlive) ↔ used = 4 ∧ length = 0) ∧
      (∀ needed available, parse bytes = .error (.frame (.incomplete needed available)) ↔
        needed = 4 + length ∧ available = bytes.length ∧ 0 < length ∧
          bytes.length < 4 + length) ∧
      ((∃ text, parse bytes = .error (.frame (.malformed text))) ↔
        0 < length ∧ 4 + length ≤ bytes.length ∧
          ∃ id, bytes[4]? = some id ∧ Misfit id length) ∧
      (0 < length → 4 + length ≤ bytes.length →
        ∃ id, bytes[4]? = some id ∧ (¬ Misfit id length →
          ∃ message, parse bytes = .ok (4 + length, message) ∧
            Carries id ((bytes.take (4 + length)).drop headerLength) message))) ∧
    (∀ failure, parse bytes = .error failure →
      (∃ size, failure = .frame (.tooShort size)) ∨
        (∃ needed available, failure = .frame (.incomplete needed available)) ∨
        ∃ text, failure = .frame (.malformed text)) ∧
    (Checked.parse bytes).run = some (parse bytes) := by
  have checked : (Checked.parse bytes).run = some (parse bytes) := Checked.parse_eq bytes
  refine ⟨?_, announced?_eq_none_iff, ?_, ?_, checked⟩
  · intro size
    cases announced : announced? bytes with
    | none =>
        have few := announced?_eq_none_iff.mp announced
        simp [parse_of_short few, few, eq_comm]
    | some length =>
        have enough : ¬ bytes.length < 4 := by simp [← announced?_eq_none_iff, announced]
        simp [(front announced).not_tooShort, enough]
  · intro length announced
    have view := front announced
    exact ⟨view.keepAlive_iff, view.incomplete_iff, view.malformed_iff, view.exists_message⟩
  · intro failure failed
    cases announced : announced? bytes with
    | none =>
        rw [parse_of_short (announced?_eq_none_iff.mp announced)] at failed
        cases failed
        exact .inl ⟨_, rfl⟩
    | some length =>
        have view := front announced
        rw [failed] at view
        exact .inr view.error_cases

/-- A reference to a block is read up to its end only. -/
example : readRef [0, 0, 0, 1, 0, 0, 0, 0, 0, 0, 0, 5, 7] =
    .error (.other "trailing bytes after block reference") := by decide

end Frame

end PeerWire

import Mathlib.Data.Nat.Bitwise
import PeerWire.Proofs.Message.Chunking

/-!
What is written is read back. A frame announces the bytes behind its length field, so the
reader of the frame at the front of a byte string finds exactly the payload that was
written, whatever follows it; the fields of a payload are words of a fixed width, and what
is not such a word runs to the end of the frame. A stream of frames is then read frame by
frame, and nothing is left of it.

Two kinds of message have no frame of their own: one that is too long for its length field,
and an unknown one that carries an id of the protocol.
-/

namespace PeerWire

namespace BigEndian

/-! ### Words -/

/-- A byte that is moved up by whole bytes. -/
theorem shiftLeft_byte (byte : UInt8) {k : Nat} (small : k ≤ 24) :
    byte.toNat <<< k % 2 ^ 32 = 2 ^ k * byte.toNat := by
  rw [Nat.shiftLeft_eq, Nat.mul_comm, Nat.mod_eq_of_lt]
  calc 2 ^ k * byte.toNat
      < 2 ^ k * 2 ^ 8 := Nat.mul_lt_mul_of_pos_left byte.toNat_lt (Nat.two_pow_pos k)
    _ = 2 ^ (k + 8) := (Nat.pow_add 2 k 8).symm
    _ ≤ 2 ^ 32 := Nat.pow_le_pow_right (by decide) (by omega)

theorem toNat_decode32 (a b c d : UInt8) : (decode32 a b c d).toNat =
    2 ^ 24 * a.toNat + (2 ^ 16 * b.toNat + (2 ^ 8 * c.toNat + d.toNat)) := by
  have hb := b.toNat_lt
  have hc := c.toNat_lt
  have hd := d.toNat_lt
  -- The bytes do not overlap, so that joining them is adding them.
  rw [Nat.two_pow_add_eq_or_of_lt (i := 24) (by omega),
    Nat.two_pow_add_eq_or_of_lt (i := 16) (by omega),
    Nat.two_pow_add_eq_or_of_lt (i := 8) (by omega), ← Nat.or_assoc, ← Nat.or_assoc]
  simp [decode32, -Nat.reducePow, shiftLeft_byte]

theorem toNat_decode16 (a b : UInt8) : (decode16 a b).toNat = 2 ^ 8 * a.toNat + b.toNat := by
  have ha := a.toNat_lt
  have shifted : a.toNat <<< 8 % 2 ^ 16 = 2 ^ 8 * a.toNat := by
    rw [Nat.shiftLeft_eq]
    omega
  rw [Nat.two_pow_add_eq_or_of_lt b.toNat_lt]
  simp [decode16, -Nat.reducePow, shifted]

/-- A word is read back in front of anything. -/
theorem take32_encode32 (word : UInt32) (rest : List UInt8) :
    take32 (encode32 word ++ rest) = some (word, rest) := by
  have small := word.toNat_lt
  have same : decode32 (word >>> 24).toUInt8 (word >>> 16).toUInt8 (word >>> 8).toUInt8
      word.toUInt8 = word := by
    rw [← UInt32.toNat_inj]
    simp only [toNat_decode32, UInt32.toNat_toUInt8, UInt32.toNat_shiftRight, UInt32.reduceToNat,
      Nat.shiftRight_eq_div_pow, Nat.reduceMod]
    omega
  simp only [encode32, List.cons_append, List.nil_append, take32, same]

theorem take16_encode16 (word : UInt16) (rest : List UInt8) :
    take16 (encode16 word ++ rest) = some (word, rest) := by
  have small := word.toNat_lt
  have same : decode16 (word >>> 8).toUInt8 word.toUInt8 = word := by
    rw [← UInt16.toNat_inj]
    simp only [toNat_decode16, UInt16.toNat_toUInt8, UInt16.toNat_shiftRight, UInt16.reduceToNat,
      Nat.shiftRight_eq_div_pow, Nat.reduceMod]
    omega
  simp only [encode16, List.cons_append, List.nil_append, take16, same]

end BigEndian

/-- The length that the frame of a message announces: an id and a payload. -/
def Message.wireLength : Message → Nat
  | .keepAlive => 0
  | .choke | .unchoke | .interested | .notInterested => 1
  | .havePiece _ => 5
  | .bitfield bits => 1 + bits.length
  | .request _ | .cancel _ => 13
  | .piece block => 9 + block.data.length
  | .port _ => 3
  | .unknown _ payload => 1 + payload.length

namespace Frame

/-! ### One frame -/

theorem length_ofPayload (id : UInt8) (payload : List UInt8) :
    (ofPayload id payload).length = 5 + payload.length := by
  simp only [ofPayload, List.length_append, BigEndian.length_encode32, List.length_cons]
  omega

/-- Behind its header a frame is its payload. -/
theorem drop_ofPayload (id : UInt8) (payload : List UInt8) :
    (ofPayload id payload).drop headerLength = payload := rfl

theorem length_encode (message : Message) :
    (encode message).length = 4 + message.wireLength := by
  cases message with
  | keepAlive => rfl
  | piece block =>
      simp only [encode, length_ofPayload, List.length_append, BigEndian.length_encode32,
        Message.wireLength]
      omega
  | bitfield bits =>
      simp only [encode, length_ofPayload, Message.wireLength]
      omega
  | unknown id payload =>
      simp only [encode, length_ofPayload, Message.wireLength]
      omega
  | _ => rfl

section Payload

variable (id : UInt8) {payload : List UInt8} (rest : List UInt8)

theorem announced?_ofPayload (short : 1 + payload.length < 2 ^ 32) :
    announced? (ofPayload id payload ++ rest) = some (1 + payload.length) := by
  have word : (UInt32.ofNat (1 + payload.length)).toNat = 1 + payload.length := by
    rw [UInt32.toNat_ofNat', Nat.mod_eq_of_lt short]
  rw [announced?, ofPayload, List.append_assoc, BigEndian.take32_encode32, Option.map_some]
  exact congrArg some word

/-- The frame at the front is read from its own bytes alone. -/
theorem parse_ofPayload (short : 1 + payload.length < 2 ^ 32) :
    parse (ofPayload id payload ++ rest) =
      (read id (ofPayload id payload)).map fun message => (5 + payload.length, message) := by
  have announced := announced?_ofPayload id rest short
  obtain ⟨a, b, c, d, front⟩ :
      ∃ a b c d, ofPayload id payload = a :: b :: c :: d :: id :: payload := ⟨_, _, _, _, rfl⟩
  rw [front] at announced ⊢
  simp only [List.cons_append, announced?, BigEndian.take32, Option.map_some,
    Option.some.injEq] at announced
  have present : 1 + payload.length ≠ 0 := by omega
  have enough : ¬ (id :: (payload ++ rest)).length < 1 + payload.length := by
    simp only [List.length_cons, List.length_append]
    omega
  have frame : List.take (4 + (1 + payload.length)) (a :: b :: c :: d :: id :: (payload ++ rest)) =
      a :: b :: c :: d :: id :: payload := by
    rw [show 4 + (1 + payload.length) = payload.length + 5 by omega]
    simp
  simp only [List.cons_append, parse, announced, if_neg present, if_neg enough, frame,
    List.headD_cons]
  congr 1
  funext message
  congr 1
  omega

end Payload

/-! ### The fields of a payload -/

theorem field32_encode32 (word : UInt32) (rest : List UInt8) :
    field32 (BigEndian.encode32 word ++ rest) = .ok (word, rest) := by
  rw [field32, BigEndian.take32_encode32]

theorem field16_encode16 (word : UInt16) (rest : List UInt8) :
    field16 (BigEndian.encode16 word ++ rest) = .ok (word, rest) := by
  rw [field16, BigEndian.take16_encode16]

theorem readRef_refPayload (ref : BlockRef) : readRef (refPayload ref) = .ok ref := by
  have last := field32_encode32 ref.length []
  rw [List.append_nil] at last
  simp only [readRef, refPayload, List.append_assoc, field32_encode32, last, bind, Except.bind,
    List.isEmpty_nil, if_true]
  rfl

theorem read_have (index : UInt32) :
    read MessageId.havePiece (encode (.havePiece index)) = .ok (.havePiece index) := by
  have word := field32_encode32 index []
  rw [List.append_nil] at word
  have payload : (encode (.havePiece index)).drop headerLength = BigEndian.encode32 index := rfl
  change readHave _ = _
  simp only [readHave, payload, word, bind, Except.bind]
  rfl

theorem readNamed_refPayload (name : String) (make : BlockRef → Message) (id : UInt8)
    (ref : BlockRef) : (do
      expectLength name 17 (ofPayload id (refPayload ref))
      return make (← readRef ((ofPayload id (refPayload ref)).drop headerLength))) =
        .ok (make ref) := by
  simp only [drop_ofPayload, readRef_refPayload, bind, Except.bind]
  rfl

theorem read_request (ref : BlockRef) :
    read MessageId.request (encode (.request ref)) = .ok (.request ref) :=
  readNamed_refPayload "request" .request MessageId.request ref

theorem read_cancel (ref : BlockRef) :
    read MessageId.cancel (encode (.cancel ref)) = .ok (.cancel ref) :=
  readNamed_refPayload "cancel" .cancel MessageId.cancel ref

theorem read_port (number : UInt16) :
    read MessageId.port (encode (.port number)) = .ok (.port number) := by
  have word := field16_encode16 number []
  rw [List.append_nil] at word
  have payload : (encode (.port number)).drop headerLength = BigEndian.encode16 number := rfl
  change readPort _ = _
  simp only [readPort, payload, word, bind, Except.bind]
  rfl

/-- The data of a block runs to the end of its frame. -/
theorem read_piece (block : Block) :
    read MessageId.piece (encode (.piece block)) = .ok (.piece block) := by
  have long : ¬ (encode (.piece block)).length < 13 := by
    rw [length_encode, Message.wireLength]
    omega
  have payload : (encode (.piece block)).drop headerLength =
      BigEndian.encode32 block.piece ++ (BigEndian.encode32 block.offset ++ block.data) := rfl
  change readPiece (encode (.piece block)) = _
  simp only [readPiece, if_neg long, payload, field32_encode32, bind, Except.bind]
  rfl

/-- An id outside the protocol is kept, with whatever comes behind it. -/
theorem read_unknown {id : UInt8} (payload : List UInt8) (foreign : 9 < id) :
    read id (encode (.unknown id payload)) = .ok (.unknown id payload) := by
  have other : ∀ known : UInt8, known ≤ 9 → id ≠ known := by
    rintro known within rfl
    exact absurd foreign (UInt8.not_lt.mpr within)
  unfold read
  rw [if_neg (other _ (by decide)), if_neg (other _ (by decide)), if_neg (other _ (by decide)),
    if_neg (other _ (by decide)), if_neg (other _ (by decide)), if_neg (other _ (by decide)),
    if_neg (other _ (by decide)), if_neg (other _ (by decide)), if_neg (other _ (by decide)),
    if_neg (other _ (by decide))]
  rfl

/-- The frame of a message is read as that message, whatever follows it. -/
theorem parse_encode_append {message : Message} (short : message.wireLength < 2 ^ 32)
    (foreign : ∀ id payload, message = .unknown id payload → 9 < id) (rest : List UInt8) :
    parse (encode message ++ rest) = .ok ((encode message).length, message) := by
  -- The length of the payload stands in the frame, so the payload's reader decides alone.
  have framed : ∀ id payload, encode message = ofPayload id payload →
      read id (encode message) = .ok message →
      parse (encode message ++ rest) = .ok ((encode message).length, message) := by
    intro id payload frame readable
    have total : 4 + message.wireLength = 5 + payload.length := by
      rw [← length_encode, frame, length_ofPayload]
    rw [length_encode, total, frame, parse_ofPayload id rest (by omega), ← frame, readable]
    rfl
  cases message with
  | keepAlive => rfl
  | havePiece index => exact framed _ _ rfl (read_have index)
  | request ref => exact framed _ _ rfl (read_request ref)
  | piece block => exact framed _ _ rfl (read_piece block)
  | cancel ref => exact framed _ _ rfl (read_cancel ref)
  | port number => exact framed _ _ rfl (read_port number)
  | unknown id payload => exact framed _ _ rfl (read_unknown payload (foreign id payload rfl))
  | _ => exact framed _ _ rfl rfl

theorem announced?_encode_append {message : Message} (short : message.wireLength < 2 ^ 32)
    (rest : List UInt8) : announced? (encode message ++ rest) = some message.wireLength := by
  have framed : ∀ id payload, encode message = ofPayload id payload →
      announced? (encode message ++ rest) = some message.wireLength := by
    intro id payload frame
    have total : message.wireLength = 1 + payload.length := by
      have length := length_encode message
      rw [frame, length_ofPayload] at length
      omega
    rw [frame, total]
    exact announced?_ofPayload id rest (by omega)
  cases message with
  | keepAlive => rfl
  | _ => exact framed _ _ rfl

end Frame

namespace Stream

open PeerWire.Frame

/-! ### A stream of frames -/

/-- A message whose frame is not too long for the reader is read off the front. -/
theorem next_encode_append {limit : Nat} {message : Message} (within : message.wireLength ≤ limit)
    (short : message.wireLength < 2 ^ 32)
    (foreign : ∀ id payload, message = .unknown id payload → 9 < id) (rest : List UInt8) :
    next limit (encode message ++ rest) = .message message rest := by
  simp only [next, announced?_encode_append short, if_neg (Nat.not_lt.mpr within), next.ofParse,
    parse_encode_append short foreign, List.drop_left]

/-- Frames in a row are read one after the other, and nothing is left. -/
theorem drain_encoded {limit : Nat} {messages : List Message}
    (fits : ∀ message ∈ messages, message.wireLength ≤ limit ∧ message.wireLength < 2 ^ 32)
    (foreign : ∀ id payload, .unknown id payload ∈ messages → 9 < id) :
    drain limit (messages.map encode).flatten = (messages, .more 0, []) := by
  induction messages with
  | nil => exact drain_of_more rfl
  | cons message later ih =>
      obtain ⟨within, short⟩ := fits message List.mem_cons_self
      have found := next_encode_append within short
        (fun id payload same => foreign id payload (same ▸ List.mem_cons_self))
        (later.map encode).flatten
      have rest := ih (fun other listed => fits other (List.mem_cons_of_mem _ listed))
        (fun id payload listed => foreign id payload (List.mem_cons_of_mem _ listed))
      rw [List.map_cons, List.flatten_cons, drain_of_message found, rest]

/-- A stream of messages is read back whole.

Each message is short enough for its length field and for the reader, and an unknown one
carries an id outside the protocol. However their frames are cut on the way, the reader
gets exactly these messages in their order, and then the clean end of the stream: all bytes
are used up. -/
theorem read_encoded (limit : Nat) (messages : List Message)
    (fits : ∀ message ∈ messages, message.wireLength ≤ limit ∧ message.wireLength < 2 ^ 32)
    (foreign : ∀ id payload, .unknown id payload ∈ messages → 9 < id)
    (chunks : List (List UInt8)) (cut : chunks.flatten = (messages.map encode).flatten) :
    read limit chunks = (messages, none) ∧
      drain limit chunks.flatten = (messages, .more 0, []) ∧ finish limit [] = .clean := by
  have drained := drain_encoded fits foreign
  rw [← cut] at drained
  refine ⟨?_, drained, rfl⟩
  have whole : read limit chunks = read.go limit chunks.flatten [] := go_eq_go_nil limit chunks []
  rw [whole, go_nil, drained]
  rfl

/-- A keep-alive, a block and an unknown message, cut inside a length field and inside the
block. -/
theorem read_encoded_cut :
    let messages : List Message :=
      [.keepAlive, .piece { piece := 1, offset := 0, data := [7, 8] }, .unknown 20 [9]]
    read 11 [[0, 0], [0, 0, 0, 0, 0, 11, 7, 0, 0, 0], [1, 0, 0, 0, 0, 7],
      [8, 0, 0, 0, 2, 20, 9]] = (messages, none) := by
  intro messages
  have fits : ∀ message ∈ messages, message.wireLength ≤ 11 ∧ message.wireLength < 2 ^ 32 := by
    decide
  have foreign : ∀ id payload, Message.unknown id payload ∈ messages → 9 < id := by
    intro id payload listed
    obtain ⟨rfl, rfl⟩ : id = 20 ∧ payload = [9] := by simpa [messages] using listed
    decide
  exact (read_encoded 11 messages fits foreign _ (by decide)).1

end Stream

end PeerWire

import PeerWire.Proofs.Message.RoundTrip

/-!
Every message has one wire form. A frame that is read gives a message whose wire form is that
very frame: no reader passes over a byte, fills one in or takes two forms for the same value.
What `Frame.parse` reads off the front of a byte string can therefore be told from the message
alone, down to the number of bytes.

With that the limits of the round trip are exact. The reader gives back neither a message whose
length does not fit its length field nor an unknown one with an id of the protocol, because it
never reads such a message off anything.
-/

namespace PeerWire

namespace BigEndian

/-! ### Words -/

/-- The bytes of a word that was read are the bytes it was read from. -/
theorem encode32_decode32 (a b c d : UInt8) : encode32 (decode32 a b c d) = [a, b, c, d] := by
  have ha := a.toNat_lt
  have hb := b.toNat_lt
  have hc := c.toNat_lt
  have hd := d.toNat_lt
  simp only [encode32, List.cons.injEq, ← UInt8.toNat_inj, UInt32.toNat_toUInt8,
    UInt32.toNat_shiftRight, UInt32.reduceToNat, Nat.shiftRight_eq_div_pow, Nat.reduceMod,
    toNat_decode32, and_true]
  omega

theorem encode16_decode16 (a b : UInt8) : encode16 (decode16 a b) = [a, b] := by
  have ha := a.toNat_lt
  have hb := b.toNat_lt
  simp only [encode16, List.cons.injEq, ← UInt8.toNat_inj, UInt16.toNat_toUInt8,
    UInt16.toNat_shiftRight, UInt16.reduceToNat, Nat.shiftRight_eq_div_pow, Nat.reduceMod,
    toNat_decode16, and_true]
  omega

end BigEndian

namespace MessageId

/-! ### Ids -/

theorem numbers : choke.toNat = 0 ∧ unchoke.toNat = 1 ∧
    interested.toNat = 2 ∧ notInterested.toNat = 3 ∧
    havePiece.toNat = 4 ∧ bitfield.toNat = 5 ∧
    request.toNat = 6 ∧ piece.toNat = 7 ∧
    cancel.toNat = 8 ∧ port.toNat = 9 := by decide

theorem known_or_foreign (id : UInt8) :
    id = choke ∨ id = unchoke ∨ id = interested ∨
      id = notInterested ∨ id = havePiece ∨ id = bitfield ∨
      id = request ∨ id = piece ∨ id = cancel ∨
      id = port ∨ 9 < id := by
  simp only [← UInt8.toNat_inj, UInt8.lt_iff_toNat_lt, numbers, UInt8.reduceToNat]
  omega

end MessageId

/-- The message has a frame of its own: its length fits the length field, and its id is not that
of another kind. -/
structure Message.HasFrame (message : Message) : Prop where
  short : message.wireLength < 2 ^ 32
  foreign : ∀ id payload, message = .unknown id payload → 9 < id

namespace Frame

open BigEndian

/-! ### The fields of a payload

A reader that succeeds has succeeded at each of its steps. -/

theorem exists_of_bind_eq_ok {α β : Type} {first : Except Failure α} {next : α → Except Failure β}
    {result : β} (found : first >>= next = .ok result) :
    ∃ value, first = .ok value ∧ next value = .ok result := by
  cases first with
  | error failure => contradiction
  | ok value => exact ⟨value, rfl, found⟩

theorem length_of_expectLength {name : String} {expected : Nat} {frame : List UInt8}
    {checked : Unit} (fits : expectLength name expected frame = .ok checked) :
    frame.length = expected := by
  unfold expectLength at fits
  split at fits
  · assumption
  · contradiction

theorem eq_of_field32 {payload rest : List UInt8} {word : UInt32}
    (found : field32 payload = .ok (word, rest)) : payload = encode32 word ++ rest := by
  match payload, found with
  | a :: b :: c :: d :: rest, rfl => rw [encode32_decode32]; rfl

theorem eq_of_field16 {payload rest : List UInt8} {word : UInt16}
    (found : field16 payload = .ok (word, rest)) : payload = encode16 word ++ rest := by
  match payload, found with
  | a :: b :: rest, rfl => rw [encode16_decode16]; rfl

/-- Nothing stands behind the three words that name a block. -/
theorem eq_of_readRef {payload : List UInt8} {ref : BlockRef}
    (found : readRef payload = .ok ref) : payload = refPayload ref := by
  obtain ⟨⟨piece, behindPiece⟩, first, found⟩ := exists_of_bind_eq_ok found
  obtain ⟨⟨offset, behindOffset⟩, second, found⟩ := exists_of_bind_eq_ok found
  obtain ⟨⟨length, behindLength⟩, third, found⟩ := exists_of_bind_eq_ok found
  dsimp only at second third found
  split at found
  · rename_i none
    cases found
    rw [eq_of_field32 first, eq_of_field32 second, eq_of_field32 third, List.isEmpty_iff.mp none,
      List.append_nil, refPayload, List.append_assoc]
  · contradiction

/-! ### One frame -/

/-- A frame with this id and this payload carries this message. -/
inductive Carries : UInt8 → List UInt8 → Message → Prop where
  | choke : Carries MessageId.choke [] .choke
  | unchoke : Carries MessageId.unchoke [] .unchoke
  | interested : Carries MessageId.interested [] .interested
  | notInterested : Carries MessageId.notInterested [] .notInterested
  | havePiece (index : UInt32) : Carries MessageId.havePiece (encode32 index) (.havePiece index)
  | bitfield (bits : List UInt8) : Carries MessageId.bitfield bits (.bitfield bits)
  | request (ref : BlockRef) : Carries MessageId.request (refPayload ref) (.request ref)
  | piece (block : Block) : Carries MessageId.piece
      (encode32 block.piece ++ encode32 block.offset ++ block.data) (.piece block)
  | cancel (ref : BlockRef) : Carries MessageId.cancel (refPayload ref) (.cancel ref)
  | port (number : UInt16) : Carries MessageId.port (encode16 number) (.port number)
  | unknown {id : UInt8} (foreign : 9 < id) (payload : List UInt8) :
      Carries id payload (.unknown id payload)

section Readers

variable {id : UInt8} {payload : List UInt8} {message : Message}

theorem Carries.encode_eq (carries : Carries id payload message) :
    encode message = ofPayload id payload := by
  cases carries <;> rfl

/-- An unknown message has an id outside the protocol. -/
theorem Carries.foreign (carries : Carries id payload message) {other : UInt8}
    {bytes : List UInt8} (unknown : message = .unknown other bytes) : 9 < other := by
  cases carries with
  | unknown foreign payload =>
      cases unknown
      exact foreign
  | _ => contradiction

theorem length_of_sized {name : String} {size : Nat} {checked : Unit}
    (fits : expectLength name (5 + size) (ofPayload id payload) = .ok checked) :
    payload.length = size := by
  have total := length_of_expectLength fits
  rw [length_ofPayload] at total
  omega

theorem eq_of_readBare {name : String} {bare : Message}
    (found : readBare name bare (ofPayload id payload) = .ok message) :
    payload = [] ∧ message = bare := by
  obtain ⟨_, fits, found⟩ := exists_of_bind_eq_ok found
  cases found
  exact ⟨List.length_eq_zero_iff.mp (length_of_sized fits), rfl⟩

theorem carries_of_readHave
    (found : readHave (ofPayload MessageId.havePiece payload) = .ok message) :
    Carries MessageId.havePiece payload message := by
  obtain ⟨_, fits, found⟩ := exists_of_bind_eq_ok found
  obtain ⟨⟨index, behind⟩, field, found⟩ := exists_of_bind_eq_ok found
  cases found
  have whole : payload = encode32 index ++ behind := eq_of_field32 field
  have size : payload.length = 4 := length_of_sized fits
  have none : behind = [] := by
    rw [whole, List.length_append, length_encode32] at size
    exact List.length_eq_zero_iff.mp (by omega)
  rw [whole, none, List.append_nil]
  exact .havePiece index

/-- The payload of a request or a cancel is the block it names. -/
theorem eq_of_readNamed {name : String} {make : BlockRef → Message} (found : (do
      expectLength name 17 (ofPayload id payload)
      return make (← readRef ((ofPayload id payload).drop headerLength))) = .ok message) :
    ∃ ref, payload = refPayload ref ∧ message = make ref := by
  obtain ⟨_, _, found⟩ := exists_of_bind_eq_ok found
  obtain ⟨ref, named, found⟩ := exists_of_bind_eq_ok found
  cases found
  exact ⟨ref, eq_of_readRef named, rfl⟩

theorem carries_of_readPort (found : readPort (ofPayload MessageId.port payload) = .ok message) :
    Carries MessageId.port payload message := by
  obtain ⟨_, fits, found⟩ := exists_of_bind_eq_ok found
  obtain ⟨⟨number, behind⟩, field, found⟩ := exists_of_bind_eq_ok found
  cases found
  have whole : payload = encode16 number ++ behind := eq_of_field16 field
  have size : payload.length = 2 := length_of_sized fits
  have none : behind = [] := by
    rw [whole, List.length_append, length_encode16] at size
    exact List.length_eq_zero_iff.mp (by omega)
  rw [whole, none, List.append_nil]
  exact .port number

theorem carries_of_readPiece (found : readPiece (ofPayload MessageId.piece payload) = .ok message) :
    Carries MessageId.piece payload message := by
  unfold readPiece at found
  split at found
  · contradiction
  · obtain ⟨⟨piece, behind⟩, first, found⟩ := exists_of_bind_eq_ok found
    obtain ⟨⟨offset, data⟩, second, found⟩ := exists_of_bind_eq_ok found
    cases found
    have whole : payload = encode32 piece ++ behind := eq_of_field32 first
    have tail : behind = encode32 offset ++ data := eq_of_field32 second
    rw [whole, tail, ← List.append_assoc]
    exact .piece { piece, offset, data }

/-- Whatever is read off a whole frame is the message that the frame carries. -/
theorem carries_of_read (found : read id (ofPayload id payload) = .ok message) :
    Carries id payload message := by
  rcases MessageId.known_or_foreign id with rfl | rfl | rfl | rfl | rfl | rfl | rfl | rfl | rfl |
    rfl | foreign
  · obtain ⟨rfl, rfl⟩ := eq_of_readBare found
    exact .choke
  · obtain ⟨rfl, rfl⟩ := eq_of_readBare found
    exact .unchoke
  · obtain ⟨rfl, rfl⟩ := eq_of_readBare found
    exact .interested
  · obtain ⟨rfl, rfl⟩ := eq_of_readBare found
    exact .notInterested
  · exact carries_of_readHave found
  · obtain rfl : .bitfield payload = message := Except.ok.inj found
    exact .bitfield payload
  · obtain ⟨ref, rfl, rfl⟩ := eq_of_readNamed found
    exact .request ref
  · exact carries_of_readPiece found
  · obtain ⟨ref, rfl, rfl⟩ := eq_of_readNamed found
    exact .cancel ref
  · exact carries_of_readPort found
  · obtain rfl : .unknown id payload = message :=
      Except.ok.inj ((read_unknown payload foreign).symm.trans found)
    exact .unknown foreign payload

end Readers

/-! ### The frame at the front -/

/-- A body that is long enough for its length field is an id, a payload and what follows. -/
theorem exists_ofPayload_append {word : UInt32} {body : List UInt8} (present : word.toNat ≠ 0)
    (enough : word.toNat ≤ body.length) :
    ∃ payload rest, encode32 word ++ body = ofPayload (body.headD 0) payload ++ rest ∧
      1 + payload.length = word.toNat := by
  match body, enough with
  | id :: behind, enough =>
      have size : 1 + (behind.take (word.toNat - 1)).length = word.toNat := by
        simp only [List.length_take, List.length_cons] at enough ⊢
        omega
      refine ⟨behind.take (word.toNat - 1), behind.drop (word.toNat - 1), ?_, size⟩
      rw [ofPayload, size, UInt32.ofNat_toNat, List.append_assoc, List.cons_append,
        List.take_append_drop, List.headD_cons]
  | [], enough => exact absurd (Nat.le_zero.mp enough) present

/-- What a successful read finds at the front: the empty frame, or a frame as long as its length
field says, which carries the message. -/
theorem parse_cases {bytes : List UInt8} {used : Nat} {message : Message}
    (parsed : parse bytes = .ok (used, message)) :
    (∃ rest, bytes = encode .keepAlive ++ rest ∧ used = 4 ∧ message = .keepAlive) ∨
      ∃ id payload rest, bytes = ofPayload id payload ++ rest ∧ used = 5 + payload.length ∧
        1 + payload.length < 2 ^ 32 ∧ Carries id payload message := by
  unfold parse at parsed
  split at parsed
  · rename_i a b c d body
    have front : a :: b :: c :: d :: body = encode32 (decode32 a b c d) ++ body := by
      rw [encode32_decode32]
      rfl
    rw [front] at parsed ⊢
    generalize decode32 a b c d = word at parsed
    dsimp only at parsed
    split at parsed
    · rename_i empty
      cases parsed
      obtain rfl : word = 0 := UInt32.toNat_inj.mp empty
      exact .inl ⟨body, rfl, rfl, rfl⟩
    · split at parsed
      · contradiction
      · rename_i present enough
        obtain ⟨payload, rest, frame, size⟩ :=
          exists_ofPayload_append present (Nat.not_lt.mp enough)
        have whole : List.take (4 + word.toNat) (encode32 word ++ body) =
            ofPayload (body.headD 0) payload := by
          rw [frame]
          exact List.take_left' (by rw [length_ofPayload]; omega)
        rw [whole] at parsed
        cases found : read (body.headD 0) (ofPayload (body.headD 0) payload) with
        | error failure => rw [found] at parsed; contradiction
        | ok value =>
            rw [found] at parsed
            cases parsed
            have short := word.toNat_lt
            exact .inr ⟨_, payload, rest, frame, by omega, by omega, carries_of_read found⟩
  · contradiction

/-- A message that was read has a frame of its own, and it was read off that frame. -/
theorem eq_append_of_parse {bytes : List UInt8} {used : Nat} {message : Message}
    (parsed : parse bytes = .ok (used, message)) :
    message.HasFrame ∧ ∃ rest, bytes = encode message ++ rest ∧ used = (encode message).length := by
  rcases parse_cases parsed with ⟨rest, front, rfl, rfl⟩ | ⟨id, payload, rest, front, size, short,
    carries⟩
  · exact ⟨⟨by decide, nofun⟩, rest, front, rfl⟩
  · have length : (encode message).length = 5 + payload.length := by
      rw [carries.encode_eq, length_ofPayload]
    refine ⟨⟨?_, fun _ _ => carries.foreign⟩, rest, by rw [carries.encode_eq, front], by omega⟩
    rw [length_encode] at length
    omega

/-! ### The two ways round -/

/-- Reading undoes writing, whatever follows the frame, exactly for the messages whose length fits
their length field and that are not an unknown message with an id of the protocol. -/
theorem read_back_iff (message : Message) (rest : List UInt8) :
    parse (encode message ++ rest) = .ok ((encode message).length, message) ↔
      (¬ ∃ id payload, message = .unknown id payload ∧ id ≤ 9) ∧ message.wireLength < 2 ^ 32 := by
  constructor
  · intro parsed
    obtain ⟨⟨short, foreign⟩, -⟩ := eq_append_of_parse parsed
    refine ⟨?_, short⟩
    rintro ⟨id, payload, unknown, within⟩
    exact absurd (foreign id payload unknown) (UInt8.not_lt.mpr within)
  · rintro ⟨known, short⟩
    refine parse_encode_append short ?_ rest
    intro id payload unknown
    by_contra within
    exact known ⟨id, payload, unknown, UInt8.not_lt.mp within⟩

/-- An unknown message with the id of the bitfield is read as a bitfield. -/
example : parse (encode (.unknown 5 [128])) = .ok (6, .bitfield [128]) := by decide

/-- Writing undoes reading. What is read off the front of a byte string takes four bytes and as
many more as these announce, all of which are there, and is written as these very bytes. So the
wire form is canonical: bytes that are read as the same message are the same bytes. An unknown
message that is read has an id outside the protocol. -/
theorem written_as_read {bytes : List UInt8} {used : Nat} {message : Message}
    (parsed : parse bytes = .ok (used, message)) :
    4 ≤ used ∧ used ≤ bytes.length ∧
      (∃ length, announced? bytes = some length ∧ used = 4 + length) ∧
      encode message = bytes.take used ∧
      (∀ other used', parse other = .ok (used', message) →
        used' = used ∧ other.take used' = bytes.take used) ∧
      ∀ id payload, message = .unknown id payload → 9 < id := by
  obtain ⟨least, most⟩ := parse_bounds parsed
  obtain ⟨⟨short, foreign⟩, rest, front, size⟩ := eq_append_of_parse parsed
  have written : encode message = bytes.take used := by
    rw [front, size, List.take_left]
  refine ⟨least, most, ⟨message.wireLength, ?_, ?_⟩, written, ?_, foreign⟩
  · rw [front, announced?_encode_append short]
  · rw [size, length_encode]
  · intro other used' again
    obtain ⟨-, rest', front', size'⟩ := eq_append_of_parse again
    refine ⟨by rw [size, size'], ?_⟩
    rw [← written, front', size', List.take_left]

/-- A port and the first byte of whatever comes next. -/
theorem written_as_read_port :
    parse [0, 0, 0, 3, 9, 26, 225, 0] = .ok (7, .port 6881) ∧
      encode (.port 6881) = [0, 0, 0, 3, 9, 26, 225, 0].take 7 := by
  have parsed : parse [0, 0, 0, 3, 9, 26, 225, 0] = .ok (7, .port 6881) := by decide
  obtain ⟨-, -, -, written, -⟩ := written_as_read parsed
  exact ⟨parsed, written⟩

end Frame

end PeerWire

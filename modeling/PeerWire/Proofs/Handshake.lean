import Mathlib.Data.Set.Function
import PeerWire.Handshake

/-!
What the exchange of handshakes makes of the bytes that the remote sends. A handshake is 68
bytes with every field in its place, and decoding accepts exactly the wire forms.

`Handshake.InFormat` says which byte strings are wire forms, by their length and their first
twenty bytes alone. Writing is a bijection of the handshakes onto them, and decoding is its
inverse: what the reserved bytes carry is neither looked at nor lost.

`Handshake.Opens` says when a stream opens with the handshake of a remote in our swarm, field
by field; nothing is said of the reserved bytes. The exchange accepts such streams and no
others, looks at the protocol's name before the swarm, and leaves everything behind the 68
bytes where it is.
-/

namespace PeerWire.Handshake

/-! ### The wire form -/

/-- The bytes before the reserved ones. -/
def opening : List UInt8 := 19 :: protocolName

theorem length_opening : opening.length = 20 := rfl

theorem protocolName_eq : protocolName = "BitTorrent protocol".toUTF8.toList := by decide +kernel

theorem opensWithName_iff {bytes : List UInt8} :
    opensWithName bytes = true ↔ bytes.take 20 = opening := beq_iff_eq

/-- The length of the name comes first, and the name behind it. -/
theorem take_eq_opening_iff {bytes : List UInt8} : bytes.take 20 = opening ↔
    bytes[0]? = some 19 ∧ (bytes.drop 1).take 19 = protocolName := by
  cases bytes with
  | nil => simp [opening]
  | cons first behind => simp [opening]

section Encode

variable (h : Handshake)

theorem encode_eq :
    h.encode = opening ++ (h.reserved.bytes ++ (h.infoHash.bytes ++ h.peerId.bytes)) := by
  have name : UInt8.ofNat protocolName.length = 19 := rfl
  simp [encode, opening, name]

theorem length_encode : h.encode.length = size := by
  simp [encode_eq, length_opening, h.reserved.length_eq, h.infoHash.length_eq,
    h.peerId.length_eq, size]

/-- Every field is in its place. -/
theorem fields_encode : h.encode.take 20 = opening ∧
    (h.encode.drop 20).take 8 = h.reserved.bytes ∧
    (h.encode.drop 28).take 20 = h.infoHash.bytes ∧ h.encode.drop 48 = h.peerId.bytes := by
  have afterName : h.encode.drop 20 = h.reserved.bytes ++ (h.infoHash.bytes ++ h.peerId.bytes) := by
    rw [encode_eq, List.drop_left' length_opening]
  have afterReserved : h.encode.drop 28 = h.infoHash.bytes ++ h.peerId.bytes := by
    rw [show 28 = 20 + 8 from rfl, ← List.drop_drop, afterName,
      List.drop_left' h.reserved.length_eq]
  have afterSwarm : h.encode.drop 48 = h.peerId.bytes := by
    rw [show 48 = 28 + 20 from rfl, ← List.drop_drop, afterReserved,
      List.drop_left' h.infoHash.length_eq]
  refine ⟨?_, ?_, ?_, afterSwarm⟩
  · rw [encode_eq, List.take_left' length_opening]
  · rw [afterName, List.take_left' h.reserved.length_eq]
  · rw [afterReserved, List.take_left' h.infoHash.length_eq]

end Encode

/-! ### Decoding -/

section Decode

variable {bytes : List UInt8}

/-- Bytes of a handshake's length that open with the name are a wire form, whatever the
reserved bytes are. -/
theorem exists_encode (whole : bytes.length = size) (name : bytes.take 20 = opening) :
    ∃ h : Handshake, bytes = h.encode := by
  unfold size at whole
  refine ⟨{
    reserved := ⟨(bytes.drop 20).take 8, by simp [whole]⟩
    infoHash := ⟨(bytes.drop 28).take 20, by simp [whole]⟩
    peerId := ⟨bytes.drop 48, by simp [whole]⟩ }, ?_⟩
  rw [encode_eq, ← name]
  have afterReserved : bytes.drop 28 = (bytes.drop 28).take 20 ++ bytes.drop 48 := by
    rw [show 48 = 28 + 20 from rfl, ← List.drop_drop, List.take_append_drop]
  have afterName : bytes.drop 20 = (bytes.drop 20).take 8 ++ bytes.drop 28 := by
    rw [show 28 = 20 + 8 from rfl, ← List.drop_drop, List.take_append_drop]
  rw [← afterReserved, ← afterName, List.take_append_drop]

theorem decode_encode (h : Handshake) : decode h.encode = .ok h := by
  obtain ⟨name, reserved, infoHash, peerId⟩ := h.fields_encode
  unfold decode
  rw [if_neg (Decidable.not_not.mpr h.length_encode), if_pos (opensWithName_iff.mpr name), reserved,
    infoHash, peerId]
  simp

theorem decode_of_other_size (other : bytes.length ≠ size) :
    decode bytes = .error (.handshake s!"expected {size} bytes, got {bytes.length}") := by
  unfold decode
  rw [if_pos other]

theorem decode_of_other_name (whole : bytes.length = size) (other : bytes.take 20 ≠ opening) :
    decode bytes = .error (.handshake "unsupported protocol string") := by
  have closed : ¬ opensWithName bytes = true := fun opens => other (opensWithName_iff.mp opens)
  unfold decode
  rw [if_neg (Decidable.not_not.mpr whole), if_neg closed]

/-- Decoding accepts the wire forms and nothing else. -/
theorem decode_eq_ok_iff {h : Handshake} : decode bytes = .ok h ↔ h.encode = bytes := by
  constructor
  · intro decoded
    by_cases whole : bytes.length = size
    · by_cases name : bytes.take 20 = opening
      · obtain ⟨written, rfl⟩ := exists_encode whole name
        rw [decode_encode] at decoded
        cases decoded
        rfl
      · rw [decode_of_other_name whole name] at decoded
        contradiction
    · rw [decode_of_other_size whole] at decoded
      contradiction
  · rintro rfl
    exact decode_encode h

end Decode

/-! ### The format -/

/-- The byte strings of the format: 68 bytes, of which the first is the length of the protocol's
name and the name comes next. Nothing is asked of the others. -/
structure InFormat (bytes : List UInt8) : Prop where
  whole : bytes.length = 68
  nameLength : bytes[0]? = some 19
  name : (bytes.drop 1).take 19 = "BitTorrent protocol".toUTF8.toList

section Format

variable {bytes : List UInt8}

theorem inFormat_iff : InFormat bytes ↔ bytes.length = size ∧ bytes.take 20 = opening := by
  rw [take_eq_opening_iff, protocolName_eq]
  constructor
  · rintro ⟨whole, nameLength, name⟩
    exact ⟨whole, nameLength, name⟩
  · rintro ⟨whole, nameLength, name⟩
    exact ⟨whole, nameLength, name⟩

instance : Decidable (InFormat bytes) := decidable_of_iff _ inFormat_iff.symm

theorem inFormat_encode (h : Handshake) : InFormat h.encode :=
  inFormat_iff.mpr ⟨h.length_encode, h.fields_encode.1⟩

theorem exists_encode_iff : (∃ h : Handshake, h.encode = bytes) ↔ InFormat bytes := by
  constructor
  · rintro ⟨h, rfl⟩
    exact inFormat_encode h
  · intro inFormat
    obtain ⟨whole, name⟩ := inFormat_iff.mp inFormat
    obtain ⟨h, written⟩ := exists_encode whole name
    exact ⟨h, written.symm⟩

/-- Different handshakes have different wire forms. -/
theorem encode_injective : Function.Injective encode := by
  intro h other same
  have decoded : decode h.encode = .ok other := decode_eq_ok_iff.mpr same.symm
  rw [decode_encode] at decoded
  exact Except.ok.inj decoded

theorem encode_bijOn : Set.BijOn encode Set.univ {bytes | InFormat bytes} := by
  refine ⟨fun h _ => inFormat_encode h, encode_injective.injOn, ?_⟩
  intro bytes inFormat
  obtain ⟨h, written⟩ := exists_encode_iff.mpr inFormat
  exact ⟨h, Set.mem_univ h, written⟩

/-- What is not in the format is refused, and its length is looked at first. -/
theorem decode_of_not_inFormat (outside : ¬ InFormat bytes) : decode bytes = .error (.handshake
    (if bytes.length = size then "unsupported protocol string"
      else s!"expected {size} bytes, got {bytes.length}")) := by
  by_cases whole : bytes.length = size
  · rw [if_pos whole]
    exact decode_of_other_name whole fun name => outside (inFormat_iff.mpr ⟨whole, name⟩)
  · rw [if_neg whole]
    exact decode_of_other_size whole

/-- Writing is a bijection of the handshakes onto the byte strings of the format, and decoding
is its inverse.

Every handshake is read back from its wire form. A byte string is decoded exactly if it has 68
bytes and opens with the protocol's name behind its length; what is decoded is written as these
very bytes again, the reserved ones included, and has each of its fields in its place in them.
Any other byte string is refused, for its length before its name. -/
theorem one_to_one_with_format :
    Set.BijOn encode Set.univ {bytes | InFormat bytes} ∧
      (∀ h : Handshake, decode h.encode = .ok h) ∧
      ∀ bytes : List UInt8, ((∃ h, decode bytes = .ok h) ↔ InFormat bytes) ∧
        (∀ h, decode bytes = .ok h → h.encode = bytes ∧
          h.reserved.bytes = (bytes.drop 20).take 8 ∧
          h.infoHash.bytes = (bytes.drop 28).take 20 ∧ h.peerId.bytes = bytes.drop 48) ∧
        (¬ InFormat bytes → decode bytes = .error (.handshake
          (if bytes.length = size then "unsupported protocol string"
            else s!"expected {size} bytes, got {bytes.length}"))) := by
  refine ⟨encode_bijOn, decode_encode, fun bytes => ⟨?_, ?_, decode_of_not_inFormat⟩⟩
  · simp only [decode_eq_ok_iff]
    exact exists_encode_iff
  · intro h decoded
    obtain rfl := decode_eq_ok_iff.mp decoded
    obtain ⟨-, reserved, infoHash, peerId⟩ := h.fields_encode
    exact ⟨rfl, reserved.symm, infoHash.symm, peerId.symm⟩

/-- A remote that announces extensions in its reserved bytes, and the same bytes with another
letter in front of the name. -/
theorem one_to_one_with_format_extended :
    let reserved : List UInt8 := [0, 0, 0, 0, 0, 16, 0, 5]
    let bytes := opening ++ reserved ++ List.replicate 20 7 ++ List.replicate 20 9
    let foreign := bytes.set 1 88
    InFormat bytes ∧ (∃ h, decode bytes = .ok h ∧ h.encode = bytes ∧ h.reserved.bytes = reserved) ∧
      ¬ InFormat foreign ∧
        decode foreign = .error (.handshake "unsupported protocol string") := by
  intro reserved bytes foreign
  obtain ⟨-, -, decoding⟩ := one_to_one_with_format
  obtain ⟨accepted, fields, -⟩ := decoding bytes
  obtain ⟨-, -, refused⟩ := decoding foreign
  have inFormat : InFormat bytes := by decide
  have outside : ¬ InFormat foreign := by decide
  obtain ⟨h, decoded⟩ := accepted.mpr inFormat
  obtain ⟨written, place, -⟩ := fields h decoded
  exact ⟨inFormat, ⟨h, decoded, written, place⟩, outside, refused outside⟩

end Format

/-! ### The exchange -/

/-- A stream opens with the handshake of this remote, in this swarm. -/
structure Opens (infoHash : InfoHash) (peerId : PeerId) (received : List UInt8) : Prop where
  whole : size ≤ received.length
  name : received.take 20 = opening
  swarm : (received.drop 28).take 20 = infoHash.bytes
  remote : (received.drop 48).take 20 = peerId.bytes

section Receive

variable {infoHash : InfoHash} {peerId : PeerId} {received rest : List UInt8} {ended : Bool}

theorem opens_encode (h : Handshake) (rest : List UInt8) :
    Opens h.infoHash h.peerId (h.encode ++ rest) := by
  obtain ⟨name, -, swarm, remote⟩ := h.fields_encode
  have long : size ≤ h.encode.length := Nat.le_of_eq h.length_encode.symm
  unfold size at long
  constructor
  · simp [h.length_encode]
  · rw [List.take_append_of_le_length (by omega), name]
  · rw [List.drop_append_of_le_length (by omega), List.take_append_of_le_length, swarm]
    rw [List.length_drop]
    omega
  · rw [List.drop_append_of_le_length (by omega), remote, List.take_left' h.peerId.length_eq]

/-- A stream that opens with the name goes on from a wire form. -/
theorem exists_encode_append (whole : size ≤ received.length)
    (name : received.take 20 = opening) :
    ∃ h : Handshake, received = h.encode ++ received.drop size := by
  have length : (received.take size).length = size := List.length_take_of_le whole
  have same : (received.take size).take 20 = opening := by
    rw [List.take_take, ← name]
    rfl
  obtain ⟨h, front⟩ := exists_encode length same
  exact ⟨h, by rw [← front, List.take_append_drop]⟩

/-- A stream opens with a handshake if it goes on from a wire form of that swarm and that
remote, with any reserved bytes. -/
theorem opens_iff : Opens infoHash peerId received ↔
    ∃ reserved rest, received = encode ⟨reserved, infoHash, peerId⟩ ++ rest := by
  constructor
  · intro opens
    obtain ⟨h, split⟩ := exists_encode_append opens.whole opens.name
    have found := h.opens_encode (received.drop size)
    rw [← split] at found
    obtain rfl : h.infoHash = infoHash := Octets.ext (found.swarm.symm.trans opens.swarm)
    obtain rfl : h.peerId = peerId := Octets.ext (found.remote.symm.trans opens.remote)
    exact ⟨h.reserved, _, split⟩
  · rintro ⟨reserved, rest, rfl⟩
    exact opens_encode ⟨reserved, infoHash, peerId⟩ rest

/-- What follows the handshake does not matter. -/
theorem Opens.append (opens : Opens infoHash peerId received) (more : List UInt8) :
    Opens infoHash peerId (received ++ more) := by
  obtain ⟨reserved, rest, rfl⟩ := opens_iff.mp opens
  rw [List.append_assoc]
  exact opens_encode ⟨reserved, infoHash, peerId⟩ _

/-- A remote that goes on from a wire form is accepted if it is in our swarm. -/
theorem receive_encode (h : Handshake) (rest : List UInt8) :
    receive infoHash (h.encode ++ rest) ended =
      if h.infoHash = infoHash then .accepted h.peerId rest
      else .refused (.peer .foreignSwarm) rest := by
  have long : ¬ (h.encode ++ rest).length < size := by simp [h.length_encode]
  unfold receive
  rw [if_neg long, List.take_left' h.length_encode, List.drop_left' h.length_encode, decode_encode]

theorem receive_of_short (short : received.length < size) :
    receive infoHash received ended = if ended then .refused .earlyEnd [] else .waiting := by
  unfold receive
  rw [if_pos short]

theorem receive_of_other_name (whole : size ≤ received.length)
    (other : received.take 20 ≠ opening) : receive infoHash received ended =
      .refused (.peer (.handshake "unsupported protocol string")) (received.drop size) := by
  have length : (received.take size).length = size := List.length_take_of_le whole
  have differs : (received.take size).take 20 ≠ opening := by
    rw [List.take_take]
    exact other
  unfold receive
  rw [if_neg (Nat.not_lt.mpr whole), decode_of_other_name length differs]

/-- Exactly the streams that open with a handshake of our swarm are accepted, and only the
handshake is taken off them. -/
theorem receive_eq_accepted_iff : receive infoHash received ended = .accepted peerId rest ↔
    Opens infoHash peerId received ∧ rest = received.drop size := by
  constructor
  · intro accepted
    by_cases whole : size ≤ received.length
    · by_cases name : received.take 20 = opening
      · obtain ⟨h, split⟩ := exists_encode_append whole name
        rw [split, receive_encode] at accepted
        split at accepted
        · rename_i swarm
          cases accepted
          subst swarm
          exact ⟨split ▸ h.opens_encode _, rfl⟩
        · contradiction
      · rw [receive_of_other_name whole name] at accepted
        contradiction
    · rw [receive_of_short (Nat.not_le.mp whole)] at accepted
      split at accepted <;> contradiction
  · rintro ⟨opens, rfl⟩
    obtain ⟨reserved, rest, rfl⟩ := opens_iff.mp opens
    rw [receive_encode, if_pos rfl, List.drop_left' (length_encode _)]

end Receive

end PeerWire.Handshake

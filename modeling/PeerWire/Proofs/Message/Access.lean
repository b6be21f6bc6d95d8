import PeerWire.Proofs.Message.RoundTrip

/-!
The reader of a frame with every access named. A slice outside of its bytes, an index behind their
end and a sum above a machine word have no result in `Checked`, neither a value nor a failure;
everything else is as in `Frame`. The two readers agree on every byte string, so no access of the
reader is ever out of range: the length field is looked at behind four bytes only, the frame is cut
off where its bytes are known to be there, and a frame that is cut off has an id.

The field readers on their own are not as careful. `Checked.readOpen` needs a frame with an id, and
it is given no other.
-/

namespace PeerWire.Frame

/-- What may succeed, fail, or be cut short by a fault of the machine. -/
abbrev Checked (α : Type) : Type := ExceptT Failure Option α

namespace Checked

variable {α β : Type}

/-! ### Accesses -/

/-- A computation without accesses. -/
def lift (outcome : Except Failure α) : Checked α := ExceptT.mk (some outcome)

/-- A fault of the machine. -/
def fault : Checked α := ExceptT.mk none

/-- Every number of a machine word is below this. -/
def wordLimit : Nat := 2 ^ 64

/-- A sum of machine words. -/
def add (a b : Nat) : Checked Nat :=
  if a + b < wordLimit then lift (.ok (a + b)) else fault

/-- The bytes from one place up to another. -/
def slice (bytes : List UInt8) (first last : Nat) : Checked (List UInt8) :=
  if first ≤ last ∧ last ≤ bytes.length then lift (.ok ((bytes.take last).drop first)) else fault

/-- The bytes from one place on. -/
def sliceFrom (bytes : List UInt8) (first : Nat) : Checked (List UInt8) :=
  slice bytes first bytes.length

/-- The byte at a place. -/
def byteAt (bytes : List UInt8) (index : Nat) : Checked UInt8 :=
  match bytes[index]? with
  | some byte => lift (.ok byte)
  | none => fault

/-! ### The reader -/

/-- The word that a slice of four bytes stands for. -/
def wordOf : List UInt8 → Except Failure UInt32
  | [a, b, c, d] => .ok (BigEndian.decode32 a b c d)
  | _ => .error (.other "could not convert slice to array")

/-- The length that the first four bytes announce. -/
def announced (bytes : List UInt8) : Checked Nat := do
  let front ← slice bytes 0 4
  let word ← lift (wordOf front)
  return word.toNat

/-- Reads a message of a fixed size from its payload. -/
def readSized (name : String) (expected : Nat) (fields : List UInt8 → Except Failure Message)
    (frame : List UInt8) : Checked Message := do
  lift (expectLength name expected frame)
  let payload ← sliceFrom frame headerLength
  lift (fields payload)

def readHave : List UInt8 → Checked Message :=
  readSized "have" 9 fun payload => do
    let (index, _) ← field32 payload
    return .havePiece index

/-- Reads a message whose payload runs to the end of the frame. -/
def readOpen (message : List UInt8 → Message) (frame : List UInt8) : Checked Message := do
  return message (← sliceFrom frame headerLength)

def readRequest : List UInt8 → Checked Message :=
  readSized "request" 17 fun payload => return .request (← readRef payload)

/-- The two words and the data of a block are sliced apart. -/
def readPiece (frame : List UInt8) : Checked Message :=
  if frame.length < 13 then
    lift (.error (.frame (.malformed
      s!"piece message too short: {frame.length} bytes (need at least 13)")))
  else do
    let words ← slice frame headerLength 13
    let (piece, words) ← lift (field32 words)
    let (offset, _) ← lift (field32 words)
    let data ← sliceFrom frame 13
    return .piece { piece, offset, data }

def readCancel : List UInt8 → Checked Message :=
  readSized "cancel" 17 fun payload => return .cancel (← readRef payload)

def readPort : List UInt8 → Checked Message :=
  readSized "port" 7 fun payload => do
    let (number, _) ← field16 payload
    return .port number

/-- Reads a whole frame with the given id. -/
def read (id : UInt8) (frame : List UInt8) : Checked Message :=
  if id = MessageId.choke then lift (readBare "choke" .choke frame)
  else if id = MessageId.unchoke then lift (readBare "unchoke" .unchoke frame)
  else if id = MessageId.interested then lift (readBare "interested" .interested frame)
  else if id = MessageId.notInterested then lift (readBare "not interested" .notInterested frame)
  else if id = MessageId.havePiece then readHave frame
  else if id = MessageId.bitfield then readOpen .bitfield frame
  else if id = MessageId.request then readRequest frame
  else if id = MessageId.piece then readPiece frame
  else if id = MessageId.cancel then readCancel frame
  else if id = MessageId.port then readPort frame
  else readOpen (.unknown id) frame

/-- Cuts a whole frame off the front and reads it. -/
def readWhole (total : Nat) (bytes : List UInt8) : Checked (Nat × Message) := do
  let frame ← slice bytes 0 total
  let id ← byteAt frame 4
  let message ← read id frame
  return (total, message)

/-- Reads the frame at the front. -/
def parse (bytes : List UInt8) : Checked (Nat × Message) :=
  if bytes.length < 4 then lift (.error (.frame (.tooShort bytes.length)))
  else do
    let length ← announced bytes
    if length = 0 then
      return (4, .keepAlive)
    else
      let total ← add 4 length
      if bytes.length < total then
        lift (.error (.frame (.incomplete total bytes.length)))
      else
        readWhole total bytes

/-! ### Accesses in range -/

theorem lift_ok_bind (value : α) (next : α → Checked β) : lift (.ok value) >>= next = next value :=
  rfl

theorem lift_bind (first : Except Failure α) (next : α → Except Failure β) :
    (lift first >>= fun value => lift (next value)) = lift (first >>= next) := by
  cases first with
  | error failure => rfl
  | ok value => rfl

theorem lift_map (outcome : Except Failure α) (f : α → β) :
    lift (outcome.map f) = lift outcome >>= fun value => pure (f value) := by
  cases outcome with
  | error failure => rfl
  | ok value => rfl

theorem add_eq {a b : Nat} (fits : a + b < wordLimit) : add a b = lift (.ok (a + b)) :=
  if_pos fits

theorem slice_eq {bytes : List UInt8} {first last : Nat} (ordered : first ≤ last)
    (within : last ≤ bytes.length) :
    slice bytes first last = lift (.ok ((bytes.take last).drop first)) :=
  if_pos ⟨ordered, within⟩

theorem sliceFrom_eq {bytes : List UInt8} {first : Nat} (within : first ≤ bytes.length) :
    sliceFrom bytes first = lift (.ok (bytes.drop first)) := by
  rw [sliceFrom, slice_eq within (Nat.le_refl _), List.take_length]

theorem byteAt_eq {bytes : List UInt8} {index : Nat} {byte : UInt8}
    (found : bytes[index]? = some byte) : byteAt bytes index = lift (.ok byte) := by
  rw [byteAt, found]

/-! ### The field readers -/

section Fields

variable {frame : List UInt8}

theorem readSized_eq (name : String) (expected : Nat)
    (fields : List UInt8 → Except Failure Message) (long : headerLength ≤ frame.length) :
    readSized name expected fields frame =
      lift (expectLength name expected frame >>= fun _ => fields (frame.drop headerLength)) := by
  rw [readSized, sliceFrom_eq long]
  exact lift_bind _ _

theorem readHave_eq (long : headerLength ≤ frame.length) :
    readHave frame = lift (Frame.readHave frame) := readSized_eq _ _ _ long

theorem readRequest_eq (long : headerLength ≤ frame.length) :
    readRequest frame = lift (Frame.readRequest frame) := readSized_eq _ _ _ long

theorem readCancel_eq (long : headerLength ≤ frame.length) :
    readCancel frame = lift (Frame.readCancel frame) := readSized_eq _ _ _ long

theorem readPort_eq (long : headerLength ≤ frame.length) :
    readPort frame = lift (Frame.readPort frame) := readSized_eq _ _ _ long

theorem readOpen_eq (message : List UInt8 → Message) (long : headerLength ≤ frame.length) :
    readOpen message frame = lift (.ok (message (frame.drop headerLength))) := by
  rw [readOpen, sliceFrom_eq long]
  rfl

/-- Without an id there is no payload to slice. -/
example : readOpen .bitfield [0, 0, 0, 1] = fault := rfl

/-- The words of a block are the same words when the data behind them is cut off. -/
theorem readPiece_eq (frame : List UInt8) : readPiece frame = lift (Frame.readPiece frame) := by
  unfold readPiece Frame.readPiece
  split
  · rfl
  · rename_i long
    match frame, Nat.not_lt.mp long with
    | _ :: _ :: _ :: _ :: _ :: _ :: _ :: _ :: _ :: _ :: _ :: _ :: _ :: data, _ =>
        rw [slice_eq (by decide) (by simp), sliceFrom_eq (by simp)]
        rfl

end Fields

theorem read_eq {frame : List UInt8} (id : UInt8) (long : headerLength ≤ frame.length) :
    read id frame = lift (Frame.read id frame) := by
  unfold read Frame.read
  rw [readHave_eq long, readOpen_eq _ long, readRequest_eq long, readPiece_eq, readCancel_eq long,
    readPort_eq long, readOpen_eq _ long]
  simp only [apply_ite lift]
  rfl

/-! ### The frame at the front -/

theorem announced_eq (a b c d : UInt8) (body : List UInt8) :
    announced (a :: b :: c :: d :: body) =
      lift (.ok (BigEndian.decode32 a b c d).toNat) := by
  rw [announced, slice_eq (by decide) (by simp)]
  rfl

theorem readWhole_eq {a b c d id : UInt8} {payload : List UInt8} {total : Nat}
    (header : headerLength ≤ total)
    (whole : total ≤ (a :: b :: c :: d :: id :: payload).length) :
    readWhole total (a :: b :: c :: d :: id :: payload) =
      lift ((Frame.read id (List.take total (a :: b :: c :: d :: id :: payload))).map
        fun message => (total, message)) := by
  have long : headerLength ≤ (List.take total (a :: b :: c :: d :: id :: payload)).length := by
    rw [List.length_take]
    omega
  have front : (List.take total (a :: b :: c :: d :: id :: payload))[4]? = some id := by
    unfold headerLength at header
    rw [List.getElem?_take_of_lt (by omega)]
    rfl
  rw [readWhole, slice_eq (Nat.zero_le _) whole, lift_ok_bind, List.drop_zero, byteAt_eq front,
    lift_ok_bind, read_eq id long, lift_map]

/-- Every access of the reader is in range, and no sum overflows. -/
theorem parse_eq (bytes : List UInt8) : parse bytes = lift (Frame.parse bytes) := by
  match bytes with
  | a :: b :: c :: d :: body =>
      have long : ¬ (a :: b :: c :: d :: body).length < 4 := by simp
      have word := (BigEndian.decode32 a b c d).toNat_lt
      rw [parse, if_neg long, announced_eq, lift_ok_bind, Frame.parse]
      generalize (BigEndian.decode32 a b c d).toNat = length at word
      by_cases present : length = 0
      · rw [if_pos present, if_pos present]
        rfl
      · rw [if_neg present, if_neg present]
        have fits : 4 + length < wordLimit := by
          unfold wordLimit
          omega
        have size : (a :: b :: c :: d :: body).length = 4 + body.length := by
          simp only [List.length_cons]
          omega
        rw [add_eq fits, lift_ok_bind, size]
        by_cases partly : body.length < length
        · rw [if_pos partly, if_pos (by omega)]
        · rw [if_neg partly, if_neg (by omega)]
          cases body with
          | nil => exact absurd (Nat.pos_of_ne_zero present) partly
          | cons id payload => exact readWhole_eq (by unfold headerLength; omega) (by omega)
  | [] => rfl
  | [_] => rfl
  | [_, _] => rfl
  | [_, _, _] => rfl

end Checked

end PeerWire.Frame

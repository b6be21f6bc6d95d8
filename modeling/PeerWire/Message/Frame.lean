import PeerWire.Failure
import PeerWire.Message

/-!
Messages as frames: a 32-bit length, then an id and a payload of that length
together; the empty frame is the keep-alive. `Frame.encode` writes a message and
`Frame.parse` reads the frame at the front of a byte string.

The length is written modulo 2^32, so a message of 2^32 bytes or more is written
with a length that does not describe it. The field readers take a whole frame and
look at its size only; a frame that passes that check holds exactly its fields.
-/

namespace PeerWire.Frame

/-! ### Writing -/

/-- A frame with the given id and payload. -/
def ofPayload (id : UInt8) (payload : List UInt8) : List UInt8 :=
  BigEndian.encode32 (UInt32.ofNat (1 + payload.length)) ++ id :: payload

/-- The payload that names a block. -/
def refPayload (ref : BlockRef) : List UInt8 :=
  BigEndian.encode32 ref.piece ++ BigEndian.encode32 ref.offset ++ BigEndian.encode32 ref.length

/-- The wire form of a message. -/
def encode : Message → List UInt8
  | .keepAlive => [0, 0, 0, 0]
  | .choke => ofPayload MessageId.choke []
  | .unchoke => ofPayload MessageId.unchoke []
  | .interested => ofPayload MessageId.interested []
  | .notInterested => ofPayload MessageId.notInterested []
  | .havePiece index => ofPayload MessageId.havePiece (BigEndian.encode32 index)
  | .bitfield bits => ofPayload MessageId.bitfield bits
  | .request ref => ofPayload MessageId.request (refPayload ref)
  | .piece block => ofPayload MessageId.piece
      (BigEndian.encode32 block.piece ++ BigEndian.encode32 block.offset ++ block.data)
  | .cancel ref => ofPayload MessageId.cancel (refPayload ref)
  | .port number => ofPayload MessageId.port (BigEndian.encode16 number)
  | .unknown id payload => ofPayload id payload

/-! ### Reading the fields of a whole frame -/

/-- The bytes of a frame before its payload. -/
def headerLength : Nat := 5

/-- A read past the end of a payload. -/
def shortField : Failure := .transport .unexpectedEnd "failed to fill whole buffer"

/-- Checks the size of a whole frame. -/
def expectLength (name : String) (expected : Nat) (frame : List UInt8) : Except Failure Unit :=
  if frame.length = expected then .ok ()
  else .error (.frame (.malformed
    s!"{name} message must be {expected} bytes, got {frame.length}"))

/-- Takes a 32-bit field off a payload. -/
def field32 (payload : List UInt8) : Except Failure (UInt32 × List UInt8) :=
  match BigEndian.take32 payload with
  | some field => .ok field
  | none => .error shortField

/-- Takes a 16-bit field off a payload. -/
def field16 (payload : List UInt8) : Except Failure (UInt16 × List UInt8) :=
  match BigEndian.take16 payload with
  | some field => .ok field
  | none => .error shortField

/-- Reads a payload that is exactly one block reference. -/
def readRef (payload : List UInt8) : Except Failure BlockRef := do
  let (piece, payload) ← field32 payload
  let (offset, payload) ← field32 payload
  let (length, payload) ← field32 payload
  if payload.isEmpty then
    return { piece, offset, length }
  else
    throw (.other "trailing bytes after block reference")

/-- A frame without payload stands for the given message. -/
def readBare (name : String) (message : Message) (frame : List UInt8) :
    Except Failure Message := do
  expectLength name 5 frame
  return message

def readHave (frame : List UInt8) : Except Failure Message := do
  expectLength "have" 9 frame
  let (index, _) ← field32 (frame.drop headerLength)
  return .havePiece index

def readBitfield (frame : List UInt8) : Except Failure Message :=
  .ok (.bitfield (frame.drop headerLength))

def readRequest (frame : List UInt8) : Except Failure Message := do
  expectLength "request" 17 frame
  return .request (← readRef (frame.drop headerLength))

def readPiece (frame : List UInt8) : Except Failure Message := do
  if frame.length < 13 then
    throw (.frame (.malformed
      s!"piece message too short: {frame.length} bytes (need at least 13)"))
  let (piece, payload) ← field32 (frame.drop headerLength)
  let (offset, data) ← field32 payload
  return .piece { piece, offset, data }

def readCancel (frame : List UInt8) : Except Failure Message := do
  expectLength "cancel" 17 frame
  return .cancel (← readRef (frame.drop headerLength))

def readPort (frame : List UInt8) : Except Failure Message := do
  expectLength "port" 7 frame
  let (number, _) ← field16 (frame.drop headerLength)
  return .port number

/-- Reads a whole frame with the given id. -/
def read (id : UInt8) (frame : List UInt8) : Except Failure Message :=
  if id = MessageId.choke then readBare "choke" .choke frame
  else if id = MessageId.unchoke then readBare "unchoke" .unchoke frame
  else if id = MessageId.interested then readBare "interested" .interested frame
  else if id = MessageId.notInterested then readBare "not interested" .notInterested frame
  else if id = MessageId.havePiece then readHave frame
  else if id = MessageId.bitfield then readBitfield frame
  else if id = MessageId.request then readRequest frame
  else if id = MessageId.piece then readPiece frame
  else if id = MessageId.cancel then readCancel frame
  else if id = MessageId.port then readPort frame
  else .ok (.unknown id (frame.drop headerLength))

/-! ### Reading the frame at the front -/

/-- The length that the first four bytes announce. -/
def announced? (bytes : List UInt8) : Option Nat :=
  (BigEndian.take32 bytes).map fun (length, _) => length.toNat

/-- Reads the frame at the front: the number of bytes it takes, and its message.
A frame that is whole and not empty has an id. -/
def parse (bytes : List UInt8) : Except Failure (Nat × Message) :=
  match bytes with
  | a :: b :: c :: d :: body =>
      let length := (BigEndian.decode32 a b c d).toNat
      if length = 0 then .ok (4, .keepAlive)
      else if body.length < length then
        .error (.frame (.incomplete (4 + length) (4 + body.length)))
      else (read (body.headD 0) (bytes.take (4 + length))).map fun message => (4 + length, message)
  | _ => .error (.frame (.tooShort bytes.length))

/-- A message that was read takes at least its length field, and no more than is there. -/
theorem parse_bounds {bytes : List UInt8} {used : Nat} {message : Message}
    (parsed : parse bytes = .ok (used, message)) : 4 ≤ used ∧ used ≤ bytes.length := by
  unfold parse at parsed
  split at parsed
  · rename_i a b c d body
    dsimp only at parsed
    split at parsed
    · cases parsed; simp
    · split at parsed
      · contradiction
      · rename_i enough
        cases outcome : read (body.headD 0)
            (List.take (4 + (BigEndian.decode32 a b c d).toNat) (a :: b :: c :: d :: body)) with
        | error fault => rw [outcome] at parsed; contradiction
        | ok value =>
            rw [outcome] at parsed
            cases parsed
            simp only [List.length_cons]
            omega
  · contradiction

end PeerWire.Frame

import PeerWire.Failure

/-!
Piece availability. One bit stands for one piece, packed into bytes with the most
significant bit first, exactly as the bits travel in a `bitfield` message; the bits
of the last byte past the last piece are spare and stay clear. Piece counts are
64-bit words. `Bitfield.has` is the set view: membership of an index.
-/

namespace PeerWire

/-- Bit `k` of a byte, counted from the most significant one. -/
def bitOf (byte : UInt8) (k : Nat) : Bool :=
  byte.toNat.testBit (7 - k)

/-- The byte in which only bit `k` is set. -/
def bitMask (k : Nat) : UInt8 :=
  UInt8.ofNat (1 <<< (7 - k))

/-- The number of bits set in a byte. -/
def bitCount (byte : UInt8) : Nat :=
  (List.range 8).countP (bitOf byte)

/-- Piece availability: a piece count and the packed bits. -/
structure Bitfield where
  pieces : UInt64
  bits : List UInt8
deriving DecidableEq, Repr, Inhabited

namespace Bitfield

/-- The bytes that hold one bit for each piece. -/
def byteCount (pieces : UInt64) : UInt64 :=
  if pieces % 8 > 0 then pieces / 8 + 1 else pieces / 8

/-- The bits of the last byte that stand for no piece. -/
def spareBits (pieces : UInt64) : UInt64 :=
  byteCount pieces * 8 - pieces

/-- The byte in which exactly the last `spare` bits are set. -/
def spareMask (spare : UInt64) : UInt8 :=
  (1 <<< spare.toUInt8) - 1

/-- No piece at all. -/
def empty (pieces : UInt64) : Bitfield where
  pieces
  bits := List.replicate (byteCount pieces).toNat 0

/-- Every piece: whole bytes of ones, then a byte with the remaining leading ones. -/
def full (pieces : UInt64) : Bitfield where
  pieces
  bits := List.replicate (pieces / 8).toNat 255 ++
    if pieces % 8 > 0 then [~~~ spareMask (spareBits pieces)] else []

/-- Reads the packed form. The length must be exactly right and no spare bit set. -/
def ofBytes? (pieces : UInt64) (bytes : List UInt8) : Except PeerFault Bitfield :=
  let expected := byteCount pieces
  if bytes.length ≠ expected.toNat then
    .error (.bitfieldLength expected.toNat bytes.length pieces.toNat)
  else
    let spare := spareBits pieces
    if spare > 0 ∧ bytes.getLast?.any (fun last => last &&& spareMask spare != 0) then
      .error (.spareBits pieces.toNat)
    else
      .ok { pieces, bits := bytes }

/-- The number of pieces, held or not. -/
def size (b : Bitfield) : Nat := b.pieces.toNat

/-- Whether piece `index` is held; no piece past the last one is. -/
def has (b : Bitfield) (index : Nat) : Bool :=
  index < b.size && (b.bits[index / 8]?).any (bitOf · (index % 8))

/-- Adds piece `index`. -/
def set (b : Bitfield) (index : Nat) : Except PeerFault Bitfield :=
  if index ≥ b.size then
    .error (.pieceOutOfRange index b.size)
  else
    .ok { b with bits := b.bits.modify (index / 8) (· ||| bitMask (index % 8)) }

/-- The number of bits set. -/
def count (b : Bitfield) : Nat :=
  b.bits.foldl (fun total byte => total + bitCount byte) 0

/-- Whether every piece is held. -/
def isComplete (b : Bitfield) : Bool :=
  b.count = b.size

/-- Whether `theirs` holds something that `ours` lacks, byte by byte over the bytes
that both have. -/
def lacksSomeOf (ours theirs : Bitfield) : Bool :=
  (ours.bits.zip theirs.bits).any fun (own, other) => other &&& ~~~ own != 0

/-- How many pieces are held, of how many. -/
def summary (b : Bitfield) : String :=
  s!"Bitfield \x7b pieces: {b.count}/{b.size} \x7d"

/-- The lowest held index below `limit` that passes a test. -/
def firstHeld? (b : Bitfield) (accept : Nat → Bool) : Option Nat :=
  (List.range b.size).find? fun index => b.has index && accept index

end Bitfield

end PeerWire

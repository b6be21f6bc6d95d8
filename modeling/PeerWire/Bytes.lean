/-!
Byte strings as lists: those of a fixed length, and words in network order.

Peer ids and info hashes are twenty bytes long wherever they travel, so the length is
part of their type. Of a word the most significant byte comes first. Writers are total;
readers take the word off the front of a byte string and hand back what follows, or
nothing when the string is too short.
-/

namespace PeerWire

/-! ### Fixed lengths -/

/-- A byte string of a fixed length. -/
structure Octets (n : Nat) where
  bytes : List UInt8
  length_eq : bytes.length = n
deriving DecidableEq, Repr

namespace Octets

variable {n : Nat}

@[ext] theorem ext {a b : Octets n} (same : a.bytes = b.bytes) : a = b := by
  cases a; cases b; cases same; rfl

/-- The byte string itself, when it has the asked length. -/
def ofList? (n : Nat) (bytes : List UInt8) : Option (Octets n) :=
  if fits : bytes.length = n then some ⟨bytes, fits⟩ else none

/-- One byte throughout. -/
def fill (n : Nat) (byte : UInt8) : Octets n :=
  ⟨List.replicate n byte, List.length_replicate⟩

instance : Inhabited (Octets n) := ⟨fill n 0⟩

@[simp] theorem ofList?_bytes (a : Octets n) : ofList? n a.bytes = some a := by
  simp [ofList?, a.length_eq]

end Octets

/-! ### Words -/

namespace BigEndian

/-- The four bytes of a 32-bit word. -/
def encode32 (word : UInt32) : List UInt8 :=
  [(word >>> 24).toUInt8, (word >>> 16).toUInt8, (word >>> 8).toUInt8, word.toUInt8]

/-- The 32-bit word with the given bytes. -/
def decode32 (a b c d : UInt8) : UInt32 :=
  (a.toUInt32 <<< 24) ||| (b.toUInt32 <<< 16) ||| (c.toUInt32 <<< 8) ||| d.toUInt32

/-- The two bytes of a 16-bit word. -/
def encode16 (word : UInt16) : List UInt8 :=
  [(word >>> 8).toUInt8, word.toUInt8]

/-- The 16-bit word with the given bytes. -/
def decode16 (a b : UInt8) : UInt16 :=
  (a.toUInt16 <<< 8) ||| b.toUInt16

/-- Takes a 32-bit word off the front. -/
def take32 : List UInt8 → Option (UInt32 × List UInt8)
  | a :: b :: c :: d :: rest => some (decode32 a b c d, rest)
  | _ => none

/-- Takes a 16-bit word off the front. -/
def take16 : List UInt8 → Option (UInt16 × List UInt8)
  | a :: b :: rest => some (decode16 a b, rest)
  | _ => none

@[simp] theorem length_encode32 (word : UInt32) : (encode32 word).length = 4 := rfl

@[simp] theorem length_encode16 (word : UInt16) : (encode16 word).length = 2 := rfl

end BigEndian

end PeerWire

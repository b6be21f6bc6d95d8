import PeerWire.Proofs.Bitfield.FiniteSet

/-!
The packed form of a bitfield. Bytes are read exactly if they are canonical, and then they are
the bytes that are written again: reading and writing are inverse to one another.

The words are those of the machine, which wrap around. `Checked` has the same operations, bit
by bit and with every sum, difference, product, shift and access named; one whose result does
not fit, or is not there, has no result. Up to eight pieces below the end of the word every
operation has one, and it is that of `Bitfield`. Beyond, the number of bits is the word's limit
itself and does not fit, although the number of spare bits that is computed from it does.
-/

namespace PeerWire.Bitfield

namespace Checked

/-! ### Machine operations -/

def add (a b : UInt64) : Option UInt64 :=
  if a.toNat + b.toNat < 2 ^ 64 then some (a + b) else none

def sub (a b : UInt64) : Option UInt64 :=
  if b ≤ a then some (a - b) else none

def mul (a b : UInt64) : Option UInt64 :=
  if a.toNat * b.toNat < 2 ^ 64 then some (a * b) else none

/-- The byte that is smaller by one. -/
def pred (byte : UInt8) : Option UInt8 :=
  if 1 ≤ byte then some (byte - 1) else none

def shiftLeft (byte : UInt8) (amount : UInt64) : Option UInt8 :=
  if amount.toNat < 8 then some (byte <<< amount.toUInt8) else none

def shiftRight (byte : UInt8) (amount : UInt64) : Option UInt8 :=
  if amount.toNat < 8 then some (byte >>> amount.toUInt8) else none

def byteAt (bytes : List UInt8) (place : UInt64) : Option UInt8 :=
  bytes[place.toNat]?

/-! ### Operations on bitfields -/

def byteCount (pieces : UInt64) : Option UInt64 :=
  if pieces % 8 > 0 then add (pieces / 8) 1 else some (pieces / 8)

def spareBits (pieces : UInt64) : Option UInt64 := do
  let bits ← mul (← byteCount pieces) 8
  sub bits pieces

def spareMask (spare : UInt64) : Option UInt8 := do
  pred (← shiftLeft 1 spare)

def empty (pieces : UInt64) : Option Bitfield := do
  return { pieces, bits := List.replicate (← byteCount pieces).toNat 0 }

def ofBytes? (pieces : UInt64) (bytes : List UInt8) : Option (Except PeerFault Bitfield) := do
  let expected ← byteCount pieces
  if bytes.length ≠ expected.toNat then
    return .error (.bitfieldLength expected.toNat bytes.length pieces.toNat)
  else
    let spare ← spareBits pieces
    if spare > 0 then
      let mask ← spareMask spare
      let last ← byteAt bytes (← sub expected 1)
      return if last &&& mask != 0 then .error (.spareBits pieces.toNat)
        else .ok { pieces, bits := bytes }
    else
      return .ok { pieces, bits := bytes }

/-- Sets one bit of packed bytes. -/
def mark (bits : List UInt8) (index : UInt64) : Option (List UInt8) := do
  let byte ← byteAt bits (index / 8)
  let mask ← shiftLeft 1 (← sub 7 (index % 8))
  return bits.set (index / 8).toNat (byte ||| mask)

/-- Sets the bits one after the other. -/
def full (pieces : UInt64) : Option Bitfield := do
  let start ← empty pieces
  let bits ← (List.range pieces.toNat).foldlM (fun bits index => mark bits (.ofNat index))
    start.bits
  return { pieces, bits }

def set (b : Bitfield) (index : UInt64) : Option (Except PeerFault Bitfield) :=
  if index ≥ b.pieces then
    some (.error (.pieceOutOfRange index.toNat b.size))
  else do
    return .ok { b with bits := ← mark b.bits index }

def has (b : Bitfield) (index : UInt64) : Option Bool :=
  if index ≥ b.pieces then
    some false
  else do
    let byte ← byteAt b.bits (index / 8)
    let shifted ← shiftRight byte (← sub 7 (index % 8))
    return shifted &&& 1 == 1

def count (b : Bitfield) : Option UInt64 :=
  b.bits.foldlM (fun total byte => add total (.ofNat (bitCount byte))) 0

/-! ### Sizes and masks -/

theorem byteCount_eq (pieces : UInt64) : byteCount pieces = some (Bitfield.byteCount pieces) := by
  have bound := pieces.toNat_lt
  unfold byteCount Bitfield.byteCount
  split
  · apply if_pos
    simp only [UInt64.toNat_div, UInt64.reduceToNat]
    omega
  · rfl

/-- The number of bits fits as long as it is not the limit itself. -/
theorem spareBits_eq {pieces : UInt64} (fits : pieces.toNat ≤ 2 ^ 64 - 8) :
    spareBits pieces = some (Bitfield.spareBits pieces) := by
  have count := toNat_byteCount pieces
  have product : (Bitfield.byteCount pieces).toNat * (8 : UInt64).toNat < 2 ^ 64 := by
    simp only [UInt64.reduceToNat]
    omega
  have enough : pieces ≤ Bitfield.byteCount pieces * 8 := by
    rw [UInt64.le_iff_toNat_le, UInt64.toNat_mul, Nat.mod_eq_of_lt product]
    simp only [UInt64.reduceToNat]
    omega
  calc spareBits pieces = mul (Bitfield.byteCount pieces) 8 >>= (sub · pieces) := by
        rw [spareBits, byteCount_eq]
        rfl
    _ = sub (Bitfield.byteCount pieces * 8) pieces := by
        rw [mul, if_pos product]
        rfl
    _ = some (Bitfield.spareBits pieces) := if_pos enough

/-- For the seven largest sizes it does not. -/
theorem spareBits_eq_none {pieces : UInt64} (large : 2 ^ 64 - 8 < pieces.toNat) :
    spareBits pieces = none := by
  have bound := pieces.toNat_lt
  have count := toNat_byteCount pieces
  have product : ¬ (Bitfield.byteCount pieces).toNat * (8 : UInt64).toNat < 2 ^ 64 := by
    simp only [UInt64.reduceToNat]
    omega
  rw [spareBits, byteCount_eq]
  show mul (Bitfield.byteCount pieces) 8 >>= (sub · pieces) = none
  rw [mul, if_neg product]
  rfl

theorem spareMask_eq {spare : UInt64} (few : spare.toNat < 8) :
    spareMask spare = some (Bitfield.spareMask spare) := by
  calc spareMask spare = shiftLeft 1 spare >>= pred := rfl
    _ = pred (1 <<< spare.toUInt8) := by
        rw [shiftLeft, if_pos few]
        rfl
    _ = some (Bitfield.spareMask spare) := if_pos (one_le_one_shiftLeft few)

theorem empty_eq (pieces : UInt64) : empty pieces = some (Bitfield.empty pieces) := by
  rw [empty, byteCount_eq]
  rfl

/-! ### Reading -/

/-- Where bits are spare there is a last byte, and it stands where it is looked for. -/
theorem byteAt_last {pieces : UInt64} {bytes : List UInt8}
    (length : bytes.length = (Bitfield.byteCount pieces).toNat)
    (spare : Bitfield.spareBits pieces > 0) :
    sub (Bitfield.byteCount pieces) 1 = some (Bitfield.byteCount pieces - 1) ∧
      ∃ last, bytes.getLast? = some last ∧
        byteAt bytes (Bitfield.byteCount pieces - 1) = some last := by
  have positive : 0 < (Bitfield.spareBits pieces).toNat := by
    simpa [UInt64.lt_iff_toNat_lt] using spare
  rw [toNat_spareBits] at positive
  have occupied : 1 ≤ Bitfield.byteCount pieces := by
    rw [UInt64.le_iff_toNat_le]
    simp only [UInt64.reduceToNat]
    omega
  have place : (Bitfield.byteCount pieces - 1).toNat = bytes.length - 1 := by
    rw [UInt64.toNat_sub_of_le _ _ occupied, length]
    rfl
  have filled : bytes ≠ [] := List.length_pos_iff.mp (by omega)
  have ends := List.getLast?_eq_some_getLast filled
  refine ⟨if_pos occupied, bytes.getLast filled, ends, ?_⟩
  rw [byteAt, place, ← List.getLast?_eq_getElem?, ends]

theorem ofBytes?_eq {pieces : UInt64} (bytes : List UInt8) (fits : pieces.toNat ≤ 2 ^ 64 - 8) :
    ofBytes? pieces bytes = some (Bitfield.ofBytes? pieces bytes) := by
  unfold ofBytes? Bitfield.ofBytes?
  rw [byteCount_eq, spareBits_eq fits, Option.bind_eq_bind, Option.bind_some]
  dsimp only
  by_cases wrong : bytes.length ≠ (Bitfield.byteCount pieces).toNat
  · rw [if_pos wrong, if_pos wrong]
    rfl
  · rw [if_neg wrong, if_neg wrong, Option.bind_eq_bind, Option.bind_some]
    by_cases spare : Bitfield.spareBits pieces > 0
    · obtain ⟨before, last, ends, found⟩ := byteAt_last (by simpa using wrong) spare
      rw [if_pos spare, spareMask_eq (spareBits_lt pieces), before]
      simp only [Option.bind_some, found, spare, ends, Option.any_some, true_and]
      rfl
    · rw [if_neg spare, if_neg (fun both => spare both.1)]
      rfl

/-! ### Single bits -/

section Bits

variable {b : Bitfield} {index : UInt64}

theorem offset_le (index : UInt64) : index % 8 ≤ 7 := by
  rw [UInt64.le_iff_toNat_le, UInt64.toNat_mod]
  simp only [UInt64.reduceToNat]
  omega

theorem toNat_offset (index : UInt64) : (7 - index % 8).toNat = 7 - index.toNat % 8 := by
  rw [UInt64.toNat_sub_of_le _ _ (offset_le index), UInt64.toNat_mod]
  rfl

theorem sub_offset (index : UInt64) : sub 7 (index % 8) = some (7 - index % 8) :=
  if_pos (offset_le index)

theorem offset_lt (index : UInt64) : (7 - index % 8).toNat < 8 := by
  rw [toNat_offset]
  omega

theorem shiftLeft_offset (index : UInt64) :
    shiftLeft 1 (7 - index % 8) = some (bitMask (index.toNat % 8)) := by
  rw [shiftLeft, if_pos (offset_lt index), Option.some_inj, ← UInt8.toNat_inj,
    toNat_one_shiftLeft (offset_lt index), toNat_bitMask, toNat_offset]

theorem shiftRight_offset (byte : UInt8) (index : UInt64) :
    (shiftRight byte (7 - index % 8)).map (fun shifted => shifted &&& 1 == 1) =
      some (bitOf byte (index.toNat % 8)) := by
  have few := offset_lt index
  have amount : (7 - index % 8).toUInt8.toNat % 8 = 7 - index.toNat % 8 := by
    rw [UInt64.toNat_toUInt8, toNat_offset]
    omega
  rw [shiftRight, if_pos few, Option.map_some, Option.some_inj, bitOf,
    Nat.testBit_eq_decide_div_mod_eq, ← Nat.shiftRight_eq_div_pow, ← amount,
    ← UInt8.toNat_shiftRight, beq_eq_decide, decide_eq_decide, ← UInt8.toNat_inj, UInt8.toNat_and]
  simp only [UInt8.reduceToNat, Nat.and_one_is_mod]

theorem mark_eq {bits : List UInt8} (inside : index.toNat / 8 < bits.length) :
    mark bits index =
      some (bits.modify (index.toNat / 8) (· ||| bitMask (index.toNat % 8))) := by
  have place : (index / 8).toNat = index.toNat / 8 := by simp
  have found : byteAt bits (index / 8) = some bits[index.toNat / 8] := by
    rw [byteAt, place, List.getElem?_eq_getElem inside]
  rw [mark, found, sub_offset]
  simp only [Option.bind_eq_bind, Option.bind_some, shiftLeft_offset, place]
  rw [List.modify_eq_set_getElem?, List.getElem?_eq_getElem inside]
  rfl

theorem set_eq (canonical : b.Canonical) (index : UInt64) :
    set b index = some (b.set index.toNat) := by
  unfold set Bitfield.set
  by_cases beyond : index ≥ b.pieces
  · have beyond' : index.toNat ≥ b.size := UInt64.le_iff_toNat_le.mp beyond
    rw [if_pos beyond, if_pos beyond']
  · have beyond' : ¬ index.toNat ≥ b.size := fun le => beyond (UInt64.le_iff_toNat_le.mpr le)
    rw [if_neg beyond, if_neg beyond', mark_eq (canonical.place_lt (Nat.not_le.mp beyond'))]
    rfl

theorem has_eq (canonical : b.Canonical) (index : UInt64) :
    has b index = some (b.has index.toNat) := by
  unfold has
  by_cases beyond : index ≥ b.pieces
  · have beyond' : ¬ index.toNat < b.size := Nat.not_lt.mpr (UInt64.le_iff_toNat_le.mp beyond)
    rw [if_pos beyond, Bitfield.has_eq, decide_eq_false beyond', Bool.false_and]
  · have inside : index.toNat < b.size :=
      Nat.not_le.mp fun le => beyond (UInt64.le_iff_toNat_le.mpr le)
    have within := canonical.place_lt inside
    have place : (index / 8).toNat = index.toNat / 8 := by simp
    have found : byteAt b.bits (index / 8) = some b.bits[index.toNat / 8] := by
      rw [byteAt, place, List.getElem?_eq_getElem within]
    rw [if_neg beyond, found, sub_offset, canonical.has_eq_packedBit, packedBit,
      List.getElem?_eq_getElem within, Option.any_some, ← shiftRight_offset]
    simp only [Option.bind_eq_bind, Option.bind_some, Option.map_eq_bind]
    rfl

end Bits

/-! ### Whole bitfields -/

/-- Marking pieces in bytes adds them one after the other. -/
theorem foldlM_mark {b : Bitfield} (built : b.Built) (indices : List Nat)
    (inside : ∀ index ∈ indices, index < b.size) :
    indices.foldlM (fun bits index => mark bits (.ofNat index)) b.bits =
      some (b.setEach indices).bits := by
  induction indices generalizing b with
  | nil => rfl
  | cons index rest ih =>
      have here := inside index List.mem_cons_self
      have word : (UInt64.ofNat index).toNat = index := by
        rw [UInt64.toNat_ofNat', Nat.mod_eq_of_lt (Nat.lt_trans here b.pieces.toNat_lt)]
      have within : (UInt64.ofNat index).toNat / 8 < b.bits.length := by
        rw [word]
        exact built.canonical.place_lt here
      have added : b.afterSet index =
          { b with bits := b.bits.modify (index / 8) (· ||| bitMask (index % 8)) } := by
        rw [afterSet, set_eq_ok_iff.mpr ⟨here, rfl⟩]
        rfl
      have next := ih (built.afterSet index) fun other later => by
        rw [size, pieces_afterSet]
        exact inside other (List.mem_cons_of_mem _ later)
      rw [List.foldlM_cons, mark_eq within, word, Option.bind_eq_bind, Option.bind_some]
      rw [added] at next
      exact next.trans (by rw [setEach, setEach, List.foldl_cons, added])

theorem full_eq (pieces : UInt64) : full pieces = some (Bitfield.full pieces) := by
  have every : ∀ index < pieces.toNat, index ∈ List.range pieces.toNat :=
    fun index inside => List.mem_range.mpr inside
  have marked := foldlM_mark (.empty pieces) (List.range pieces.toNat)
    fun index inside => List.mem_range.mp inside
  rw [setEach_empty_eq_full pieces every] at marked
  rw [full, empty_eq, Option.bind_eq_bind, Option.bind_some, marked]
  rfl

theorem add_ofNat {a b : Nat} (fits : a + b < 2 ^ 64) :
    add (.ofNat a) (.ofNat b) = some (.ofNat (a + b)) := by
  have left : (UInt64.ofNat a).toNat = a := by
    rw [UInt64.toNat_ofNat', Nat.mod_eq_of_lt (by omega)]
  have right : (UInt64.ofNat b).toNat = b := by
    rw [UInt64.toNat_ofNat', Nat.mod_eq_of_lt (by omega)]
  rw [add, left, right, if_pos fits, UInt64.ofNat_add]

theorem foldlM_add {bytes : List UInt8} {total : Nat}
    (fits : bytes.foldl (fun total byte => total + bitCount byte) total < 2 ^ 64) :
    bytes.foldlM (fun total byte => add total (.ofNat (bitCount byte))) (.ofNat total) =
      some (.ofNat (bytes.foldl (fun total byte => total + bitCount byte) total)) := by
  induction bytes generalizing total with
  | nil => rfl
  | cons byte rest ih =>
      have here : total + bitCount byte < 2 ^ 64 := by
        rw [List.foldl_cons, foldl_bitCount] at fits
        exact Nat.lt_of_le_of_lt (Nat.le_add_right _ _) fits
      rw [List.foldlM_cons, add_ofNat here, Option.bind_eq_bind, Option.bind_some]
      exact ih fits

/-- The count is at most the number of pieces, which is a word. -/
theorem count_eq {b : Bitfield} (canonical : b.Canonical) :
    count b = some (.ofNat b.count) ∧ (UInt64.ofNat b.count).toNat = b.count := by
  have few : b.count ≤ b.size := by
    rw [canonical.count_eq]
    exact List.countP_le_length.trans_eq List.length_range
  have fits := Nat.lt_of_le_of_lt few b.pieces.toNat_lt
  exact ⟨foldlM_add fits, by rw [UInt64.toNat_ofNat', Nat.mod_eq_of_lt fits]⟩

end Checked

/-! ### The canonical encodings -/

theorem canonical_iff {pieces : UInt64} {bytes : List UInt8} :
    ({ pieces, bits := bytes } : Bitfield).Canonical ↔ bytes.length = (pieces.toNat + 7) / 8 ∧
      ∀ index, pieces.toNat ≤ index → packedBit bytes index = false := by
  rw [← toNat_byteCount]
  constructor
  · rintro ⟨length, spare⟩
    exact ⟨length, spare⟩
  · rintro ⟨length, spare⟩
    exact ⟨length, spare⟩

theorem Built.ofBytes?_bits {b : Bitfield} (built : b.Built) :
    ofBytes? b.pieces b.bits = .ok b :=
  ofBytes?_eq_ok_iff.mpr ⟨rfl, built.canonical⟩

/-- No operation on a bitfield of this size meets a fault of the machine. -/
structure Faultless (pieces : UInt64) : Prop where
  spareBits : Checked.spareBits pieces = some (spareBits pieces)
  spareMask : Checked.spareMask (Bitfield.spareBits pieces) =
    some (spareMask (Bitfield.spareBits pieces))
  empty : Checked.empty pieces = some (empty pieces)
  full : Checked.full pieces = some (full pieces)
  ofBytes? : ∀ bytes, Checked.ofBytes? pieces bytes = some (ofBytes? pieces bytes)
  set : ∀ b : Bitfield, b.Built → b.pieces = pieces → ∀ index : UInt64,
    Checked.set b index = some (b.set index.toNat)
  has : ∀ b : Bitfield, b.Built → b.pieces = pieces → ∀ index : UInt64,
    Checked.has b index = some (b.has index.toNat)
  count : ∀ b : Bitfield, b.Built → b.pieces = pieces →
    ∃ total, Checked.count b = some total ∧ total.toNat = b.count

theorem faultless {pieces : UInt64} (fits : pieces.toNat ≤ 2 ^ 64 - 8) : Faultless pieces where
  spareBits := Checked.spareBits_eq fits
  spareMask := Checked.spareMask_eq (spareBits_lt pieces)
  empty := Checked.empty_eq pieces
  full := Checked.full_eq pieces
  ofBytes? bytes := Checked.ofBytes?_eq bytes fits
  set _ built _ index := Checked.set_eq built.canonical index
  has _ built _ index := Checked.has_eq built.canonical index
  count _ built _ := ⟨_, Checked.count_eq built.canonical⟩

/-- Reading accepts exactly the canonical encodings, and is the inverse of writing.

A byte string is read exactly if it has a byte for every eight pieces or less and no bit behind
the last piece. The bitfield then has these bytes, and a piece of it is the bit in its place.
Every bitfield that has come about, whatever was added to it since, there or not, is read back
from its bytes. Up to eight pieces below the end of the word no operation meets a fault of the
machine, beyond it the number of bits overflows, and the number of spare bits is always a shift
within a byte. -/
theorem reads_canonical (pieces : UInt64) (bytes : List UInt8) :
    ((∃ b, ofBytes? pieces bytes = .ok b) ↔ bytes.length = (pieces.toNat + 7) / 8 ∧
        ∀ index, pieces.toNat ≤ index → packedBit bytes index = false) ∧
      (∀ b, ofBytes? pieces bytes = .ok b → b.pieces = pieces ∧ b.bits = bytes ∧
        (∀ index < pieces.toNat, b.has index = packedBit bytes index) ∧
        ∀ index, pieces.toNat ≤ index → b.has index = false) ∧
      (∀ b : Bitfield, b.Built → ∀ indices, let x := b.setEach indices
        ofBytes? x.pieces x.bits = .ok x) ∧
      (pieces.toNat ≤ 2 ^ 64 - 8 → Faultless pieces) ∧
      (2 ^ 64 - 8 < pieces.toNat → Checked.spareBits pieces = none) ∧
      (spareBits pieces).toNat ≤ 7 := by
  refine ⟨?_, ?_, ?_, faultless, Checked.spareBits_eq_none,
    Nat.le_of_lt_succ (spareBits_lt pieces)⟩
  · rw [← canonical_iff]
    constructor
    · rintro ⟨b, accepted⟩
      exact (ofBytes?_eq_ok_iff.mp accepted).2
    · intro canonical
      exact ⟨_, ofBytes?_eq_ok_iff.mpr ⟨rfl, canonical⟩⟩
  · intro b accepted
    obtain ⟨rfl, canonical⟩ := ofBytes?_eq_ok_iff.mp accepted
    refine ⟨rfl, rfl, fun index _ => canonical.has_eq_packedBit index, ?_⟩
    intro index beyond
    rw [canonical.has_eq_packedBit]
    exact canonical.spare index beyond
  · intro b built indices
    exact (built.setEach indices).ofBytes?_bits

/-- The four bits in front are pieces, and none of the spare ones may be set. -/
example : ofBytes? 4 [240] = .ok (full 4) ∧ ofBytes? 4 [241] = .error (.spareBits 4) := by decide

end PeerWire.Bitfield

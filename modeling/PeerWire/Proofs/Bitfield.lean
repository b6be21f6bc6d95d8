import Mathlib.Data.Nat.Bitwise
import Mathlib.Tactic.Common
import PeerWire.Bitfield

/-!
The set that packed bits stand for. `packedBit` numbers the bits of a list of bytes as they
travel, and a bitfield is canonical when it has exactly the bytes that its pieces need and
no bit behind the last piece: then its pieces are its bits. Reading accepts exactly the
canonical encodings, and adding a piece changes that piece and keeps the bitfield
canonical: in whatever way a bitfield is `Built`, it is canonical. One that is complete by its
count holds every piece. What one canonical bitfield lacks of another is the difference of the
two sets.
-/

namespace PeerWire

/-! ### Bits of a byte -/

theorem toNat_bitMask (k : Nat) : (bitMask k).toNat = 2 ^ (7 - k) := by
  have small : 2 ^ (7 - k) < 2 ^ 8 := Nat.pow_lt_pow_right (by decide) (by omega)
  rw [bitMask, UInt8.toNat_ofNat', Nat.one_shiftLeft, Nat.mod_eq_of_lt small]

theorem bitOf_or_bitMask (byte : UInt8) {k j : Nat} (inside : k < 8) (within : j < 8) :
    bitOf (byte ||| bitMask k) j = (bitOf byte j || decide (j = k)) := by
  rw [bitOf, UInt8.toNat_or, Nat.testBit_or, toNat_bitMask, Nat.testBit_two_pow, bitOf]
  congr 1
  simp only [decide_eq_decide]
  omega

theorem testBit_not (byte : UInt8) (j : Nat) :
    (~~~ byte).toNat.testBit j = (decide (j < 8) && !byte.toNat.testBit j) := by
  have flipped : (~~~ byte).toNat = 2 ^ 8 - (byte.toNat + 1) := by
    rw [UInt8.toNat_not]
    simp
  rw [flipped, Nat.testBit_two_pow_sub_succ byte.toNat_lt]

/-- Bit `index` of bytes that travel one after the other. -/
def packedBit (bytes : List UInt8) (index : Nat) : Bool :=
  (bytes[index / 8]?).any (bitOf · (index % 8))

theorem packedBit_of_le {bytes : List UInt8} {index : Nat} (beyond : 8 * bytes.length ≤ index) :
    packedBit bytes index = false := by
  rw [packedBit, List.getElem?_eq_none (by omega)]
  rfl

theorem packedBit_replicate_zero (count index : Nat) :
    packedBit (List.replicate count 0) index = false := by
  unfold packedBit
  rw [List.getElem?_replicate]
  split
  · simp [bitOf]
  · rfl

theorem packedBit_replicate_ones (count index : Nat) :
    packedBit (List.replicate count 255) index = decide (index < 8 * count) := by
  have ones : ∀ k < 8, bitOf 255 k = true := by decide
  unfold packedBit
  rw [List.getElem?_replicate]
  split
  · rw [Option.any_some, ones _ (Nat.mod_lt _ (by decide)), decide_eq_true (by omega)]
  · rw [Option.any_none, decide_eq_false (by omega)]

theorem packedBit_cons_of_lt (byte : UInt8) (bytes : List UInt8) {k : Nat} (inside : k < 8) :
    packedBit (byte :: bytes) k = bitOf byte k := by
  rw [packedBit, Nat.div_eq_of_lt inside, Nat.mod_eq_of_lt inside]
  rfl

theorem packedBit_append (front back : List UInt8) (index : Nat) :
    packedBit (front ++ back) index = if index < 8 * front.length then packedBit front index
      else packedBit back (index - 8 * front.length) := by
  unfold packedBit
  split
  · rw [List.getElem?_append_left (by omega)]
  · have place : (index - 8 * front.length) / 8 = index / 8 - front.length := by omega
    have offset : (index - 8 * front.length) % 8 = index % 8 := by omega
    rw [List.getElem?_append_right (by omega), place, offset]

/-- The bits of the last byte stand behind those of all others. -/
theorem packedBit_getLast {bytes : List UInt8} {last : UInt8} (ends : bytes.getLast? = some last)
    {k : Nat} (inside : k < 8) : packedBit bytes (8 * (bytes.length - 1) + k) = bitOf last k := by
  have place : (8 * (bytes.length - 1) + k) / 8 = bytes.length - 1 := by omega
  have offset : (8 * (bytes.length - 1) + k) % 8 = k := by omega
  rw [List.getLast?_eq_getElem?] at ends
  rw [packedBit, place, offset, ends]
  rfl

namespace Bitfield

/-! ### Sizes

The words do not overflow where the result fits: the product in `spareBits` may wrap, and
the difference then wraps back. -/

theorem toNat_byteCount (pieces : UInt64) :
    (byteCount pieces).toNat = (pieces.toNat + 7) / 8 := by
  have bound := pieces.toNat_lt
  unfold byteCount
  split
  · rename_i uneven
    have rest : 0 < pieces.toNat % 8 := by simpa [UInt64.lt_iff_toNat_lt] using uneven
    simp only [UInt64.toNat_add, UInt64.toNat_div, UInt64.reduceToNat]
    omega
  · rename_i even
    have rest : pieces.toNat % 8 = 0 := by simpa [UInt64.lt_iff_toNat_lt] using even
    simp only [UInt64.toNat_div, UInt64.reduceToNat]
    omega

theorem toNat_spareBits (pieces : UInt64) :
    (spareBits pieces).toNat = 8 * (byteCount pieces).toNat - pieces.toNat := by
  have bound := pieces.toNat_lt
  have count := toNat_byteCount pieces
  simp only [spareBits, UInt64.toNat_sub, UInt64.toNat_mul, count, UInt64.reduceToNat]
  omega

theorem spareBits_lt (pieces : UInt64) : (spareBits pieces).toNat < 8 := by
  rw [toNat_spareBits, toNat_byteCount]
  omega

theorem toNat_one_shiftLeft {amount : UInt64} (few : amount.toNat < 8) :
    ((1 : UInt8) <<< amount.toUInt8).toNat = 2 ^ amount.toNat := by
  have small : 2 ^ amount.toNat < 2 ^ 8 := Nat.pow_lt_pow_right (by decide) few
  have same : amount.toUInt8.toNat % 8 = amount.toNat := by
    rw [UInt64.toNat_toUInt8]
    omega
  rw [UInt8.toNat_shiftLeft, same, UInt8.toNat_one, Nat.one_shiftLeft, Nat.mod_eq_of_lt small]

theorem one_le_one_shiftLeft {amount : UInt64} (few : amount.toNat < 8) :
    (1 : UInt8) ≤ 1 <<< amount.toUInt8 := by
  rw [UInt8.le_iff_toNat_le, toNat_one_shiftLeft few]
  exact Nat.one_le_two_pow

theorem toNat_spareMask {spare : UInt64} (few : spare.toNat < 8) :
    (spareMask spare).toNat = 2 ^ spare.toNat - 1 := by
  rw [spareMask, UInt8.toNat_sub_of_le _ _ (one_le_one_shiftLeft few), toNat_one_shiftLeft few]
  rfl

/-- A byte meets the mask exactly in one of its last bits. -/
theorem and_spareMask_ne_zero_iff (byte : UInt8) {spare : UInt64} (few : spare.toNat < 8) :
    byte &&& spareMask spare ≠ 0 ↔ ∃ k, 8 - spare.toNat ≤ k ∧ k < 8 ∧ bitOf byte k = true := by
  have apart : byte &&& spareMask spare = 0 ↔
      ∀ j, (byte.toNat &&& (2 ^ spare.toNat - 1)).testBit j = false := by
    rw [← UInt8.toNat_inj, UInt8.toNat_and, toNat_spareMask few]
    constructor
    · intro none j
      rw [none]
      exact Nat.zero_testBit j
    · intro none
      exact Nat.eq_of_testBit_eq fun j => (none j).trans (Nat.zero_testBit j).symm
  rw [ne_eq, apart]
  simp only [Nat.testBit_and, Nat.testBit_two_pow_sub_one, not_forall, Bool.not_eq_false,
    Bool.and_eq_true, decide_eq_true_eq]
  constructor
  · rintro ⟨j, held, low⟩
    refine ⟨7 - j, by omega, by omega, ?_⟩
    rw [bitOf, Nat.sub_sub_self (by omega)]
    exact held
  · rintro ⟨k, _, _, held⟩
    exact ⟨7 - k, held, by omega⟩

theorem bitOf_not_spareMask {spare : UInt64} (few : spare.toNat < 8) {k : Nat} (inside : k < 8) :
    bitOf (~~~ spareMask spare) k = decide (k < 8 - spare.toNat) := by
  rw [bitOf, testBit_not, toNat_spareMask few, Nat.testBit_two_pow_sub_one, ← decide_not,
    ← Bool.decide_and, decide_eq_decide]
  omega

/-! ### Canonical bitfields -/

/-- As many bytes as the pieces need, and no bit behind the last piece. -/
structure Canonical (b : Bitfield) : Prop where
  length : b.bits.length = (byteCount b.pieces).toNat
  spare : ∀ index, b.size ≤ index → packedBit b.bits index = false

theorem has_eq (b : Bitfield) (index : Nat) :
    b.has index = (decide (index < b.size) && packedBit b.bits index) := rfl

/-- A canonical bitfield is the set of its bits. -/
theorem Canonical.has_eq_packedBit {b : Bitfield} (canonical : b.Canonical) (index : Nat) :
    b.has index = packedBit b.bits index := by
  rw [has_eq]
  by_cases inside : index < b.size
  · simp [inside]
  · simp [inside, canonical.spare index (by omega)]

/-- The byte of a piece is there. -/
theorem Canonical.place_lt {b : Bitfield} (canonical : b.Canonical) {index : Nat}
    (inside : index < b.size) : index / 8 < b.bits.length := by
  have count := toNat_byteCount b.pieces
  unfold size at inside
  rw [canonical.length]
  omega

theorem canonical_empty (pieces : UInt64) : (empty pieces).Canonical where
  length := List.length_replicate
  spare index _ := packedBit_replicate_zero _ index

theorem has_empty (pieces : UInt64) (index : Nat) : (empty pieces).has index = false := by
  rw [(canonical_empty pieces).has_eq_packedBit]
  exact packedBit_replicate_zero _ index

/-- Whole bytes of ones, and behind them a byte of leading ones if one is needed. -/
theorem bits_full (pieces : UInt64) : (full pieces).bits =
    List.replicate (pieces.toNat / 8) 255 ++
      if 0 < pieces.toNat % 8 then [~~~ spareMask (spareBits pieces)] else [] := by
  simp [full, UInt64.lt_iff_toNat_lt]

theorem packedBit_full (pieces : UInt64) (index : Nat) :
    packedBit (full pieces).bits index = decide (index < pieces.toNat) := by
  have spare := toNat_spareBits pieces
  have count := toNat_byteCount pieces
  rw [bits_full, packedBit_append, List.length_replicate, packedBit_replicate_ones]
  split
  · rw [decide_eq_decide]
    omega
  · split
    · rcases Nat.lt_or_ge (index - 8 * (pieces.toNat / 8)) 8 with inside | beyond
      · rw [packedBit_cons_of_lt _ _ inside, bitOf_not_spareMask (spareBits_lt pieces) inside,
          decide_eq_decide]
        omega
      · rw [packedBit_of_le beyond, eq_comm, decide_eq_false_iff_not]
        omega
    · rw [packedBit_of_le (Nat.zero_le _), eq_comm, decide_eq_false_iff_not]
      omega

theorem canonical_full (pieces : UInt64) : (full pieces).Canonical where
  length := by
    rw [bits_full, List.length_append, List.length_replicate]
    simp only [full, toNat_byteCount]
    split
    · rw [List.length_singleton]
      omega
    · rw [List.length_nil]
      omega
  spare index beyond := by
    rw [packedBit_full]
    exact decide_eq_false (Nat.not_lt.mpr beyond)

theorem has_full (pieces : UInt64) (index : Nat) :
    (full pieces).has index = decide (index < pieces.toNat) := by
  rw [(canonical_full pieces).has_eq_packedBit, packedBit_full]

/-! ### Adding a piece -/

theorem set_eq_ok_iff {b b' : Bitfield} {index : Nat} : b.set index = .ok b' ↔
    index < b.size ∧
      b' = { b with bits := b.bits.modify (index / 8) (· ||| bitMask (index % 8)) } := by
  unfold set
  split
  · simp only [reduceCtorEq, false_iff, not_and]
    omega
  · simp only [Except.ok.injEq, eq_comm (b := b')]
    exact (and_iff_right (by omega)).symm

theorem packedBit_modify (bytes : List UInt8) {index : Nat} (inside : index < 8 * bytes.length)
    (other : Nat) :
    packedBit (bytes.modify (index / 8) (· ||| bitMask (index % 8))) other =
      (packedBit bytes other || decide (other = index)) := by
  unfold packedBit
  rw [List.getElem?_modify]
  by_cases same : index / 8 = other / 8
  · have there : other / 8 < bytes.length := by omega
    have aligned : other % 8 = index % 8 ↔ other = index := by omega
    simp only [List.getElem?_eq_getElem there, same, if_true, Option.map_eq_map, Option.map_some,
      Option.any_some, ← aligned]
    exact bitOf_or_bitMask _ (Nat.mod_lt _ (by decide)) (Nat.mod_lt _ (by decide))
  · have differs : other ≠ index := fun equal => same (by rw [equal])
    simp [same, differs]

/-- After a piece is added, exactly that piece has changed. -/
theorem Canonical.set {b b' : Bitfield} (canonical : b.Canonical) {index : Nat}
    (added : b.set index = .ok b') :
    b'.Canonical ∧ ∀ other, b'.has other = (b.has other || decide (other = index)) := by
  obtain ⟨inside, rfl⟩ := set_eq_ok_iff.mp added
  have within : index < 8 * b.bits.length := by
    have place := canonical.place_lt inside
    omega
  have kept : Canonical { b with
      bits := b.bits.modify (index / 8) (· ||| bitMask (index % 8)) } := by
    refine ⟨?_, ?_⟩
    · rw [List.length_modify]
      exact canonical.length
    · intro other beyond
      have past : b.size ≤ other := beyond
      rw [packedBit_modify _ within, canonical.spare other past]
      exact decide_eq_false (by omega)
  refine ⟨kept, ?_⟩
  intro other
  rw [kept.has_eq_packedBit, canonical.has_eq_packedBit]
  exact packedBit_modify _ within other

/-! ### Reading -/

/-- The last bits of the last byte are the bits behind the last piece. -/
theorem spare_clear_iff {pieces : UInt64} {bytes : List UInt8}
    (length : bytes.length = (byteCount pieces).toNat) :
    (¬ (spareBits pieces > 0 ∧
      bytes.getLast?.any (fun last => last &&& spareMask (spareBits pieces) != 0) = true)) ↔
      ∀ index, pieces.toNat ≤ index → packedBit bytes index = false := by
  have spare := toNat_spareBits pieces
  have few := spareBits_lt pieces
  constructor
  · intro clear index beyond
    by_cases past : 8 * bytes.length ≤ index
    · exact packedBit_of_le past
    · have occupied : bytes ≠ [] := List.length_pos_iff.mp (by omega)
      have ends : bytes.getLast? = some (bytes.getLast occupied) :=
        List.getLast?_eq_some_getLast occupied
      have offset : index = 8 * (bytes.length - 1) + index % 8 := by omega
      rw [offset, packedBit_getLast ends (Nat.mod_lt _ (by decide))]
      by_contra held
      refine clear ⟨?_, ?_⟩
      · rw [gt_iff_lt, UInt64.lt_iff_toNat_lt]
        simp only [UInt64.reduceToNat]
        omega
      · rw [ends, Option.any_some, bne_iff_ne]
        exact (and_spareMask_ne_zero_iff _ few).mpr
          ⟨index % 8, by omega, Nat.mod_lt _ (by decide), by simpa using held⟩
  · rintro clear ⟨_, meets⟩
    obtain ⟨last, ends, hit⟩ := Option.any_eq_true _ _ |>.mp meets
    obtain ⟨k, low, inside, held⟩ := (and_spareMask_ne_zero_iff last few).mp (bne_iff_ne.mp hit)
    have occupied : bytes ≠ [] := by
      rintro rfl
      contradiction
    have positive := List.length_pos_iff.mpr occupied
    have none := clear (8 * (bytes.length - 1) + k) (by omega)
    rw [packedBit_getLast ends inside, held] at none
    contradiction

/-- Reading accepts exactly the canonical encodings, and takes the bytes as they are. -/
theorem ofBytes?_eq_ok_iff {pieces : UInt64} {bytes : List UInt8} {b : Bitfield} :
    ofBytes? pieces bytes = .ok b ↔
      b = { pieces, bits := bytes } ∧ ({ pieces, bits := bytes } : Bitfield).Canonical := by
  unfold ofBytes?
  dsimp only
  split
  · rename_i wrong
    simp only [reduceCtorEq, false_iff, not_and]
    exact fun _ canonical => wrong canonical.length
  · rename_i right
    have length : bytes.length = (byteCount pieces).toNat := by simpa using right
    have clear := spare_clear_iff length
    split
    · rename_i marked
      simp only [reduceCtorEq, false_iff, not_and]
      exact fun _ canonical => clear.mpr canonical.spare marked
    · rename_i unmarked
      simp only [Except.ok.injEq, eq_comm (b := b)]
      exact (and_iff_left ⟨length, clear.mp unmarked⟩).symm

/-- The bitfields that can come about. -/
inductive Built : Bitfield → Prop where
  | empty (pieces : UInt64) : Built (empty pieces)
  | full (pieces : UInt64) : Built (full pieces)
  | read {pieces : UInt64} {bytes : List UInt8} {b : Bitfield}
      (accepted : ofBytes? pieces bytes = .ok b) : Built b
  | added {b b' : Bitfield} {index : Nat} (built : Built b) (added : b.set index = .ok b') :
      Built b'

/-- No bitfield comes about that is not canonical. -/
theorem Built.canonical {b : Bitfield} (built : b.Built) : b.Canonical := by
  induction built with
  | empty pieces => exact canonical_empty pieces
  | full pieces => exact canonical_full pieces
  | read accepted =>
      obtain ⟨rfl, canonical⟩ := ofBytes?_eq_ok_iff.mp accepted
      exact canonical
  | added built added ih => exact (ih.set added).1

/-! ### Counting -/

theorem packedBit_cons_add (byte : UInt8) (bytes : List UInt8) (index : Nat) :
    packedBit (byte :: bytes) (8 + index) = packedBit bytes index := by
  have place : (8 + index) / 8 = index / 8 + 1 := by omega
  rw [packedBit, place, Nat.add_mod_left, List.getElem?_cons_succ, packedBit]

/-- The sum over the bytes goes over their bits one by one. -/
theorem foldl_bitCount (bytes : List UInt8) (total : Nat) :
    bytes.foldl (fun total byte => total + bitCount byte) total =
      total + (List.range (8 * bytes.length)).countP (packedBit bytes) := by
  induction bytes generalizing total with
  | nil => rfl
  | cons byte rest ih =>
      have first : (List.range 8).countP (packedBit (byte :: rest)) = bitCount byte :=
        List.countP_congr fun k inside => by
          rw [packedBit_cons_of_lt byte rest (List.mem_range.mp inside)]
      rw [List.foldl_cons, ih, List.length_cons, Nat.mul_succ, Nat.add_comm (8 * _),
        List.range_add, List.countP_append, List.countP_map, first, Nat.add_assoc]
      simp only [Function.comp_def, packedBit_cons_add]

/-- Of a canonical bitfield the count goes over the pieces one by one. -/
theorem Canonical.count_eq {b : Bitfield} (canonical : b.Canonical) :
    b.count = (List.range b.size).countP b.has := by
  have fits : b.size ≤ 8 * b.bits.length := by
    have count := toNat_byteCount b.pieces
    rw [canonical.length, size]
    omega
  obtain ⟨spare, split⟩ := Nat.exists_eq_add_of_le fits
  have clear : ((List.range spare).map (b.size + ·)).countP (packedBit b.bits) = 0 := by
    simp [canonical.spare]
  rw [count, foldl_bitCount, Nat.zero_add, split, List.range_add, List.countP_append, clear,
    Nat.add_zero]
  exact List.countP_congr fun index _ => by rw [canonical.has_eq_packedBit]

/-- A canonical bitfield has as many pieces as there are exactly if it holds them all. -/
theorem Canonical.isComplete_iff {b : Bitfield} (canonical : b.Canonical) :
    b.isComplete = true ↔ ∀ index < b.size, b.has index = true := by
  have all := List.countP_eq_length (l := List.range b.size) (p := b.has)
  rw [List.length_range, ← canonical.count_eq] at all
  simpa [isComplete] using all

theorem Canonical.has_of_isComplete {b : Bitfield} (canonical : b.Canonical)
    (complete : b.isComplete = true) {index : Nat} (inside : index < b.size) :
    b.has index = true :=
  canonical.isComplete_iff.mp complete index inside

/-! ### What one bitfield lacks of another -/

theorem and_not_ne_zero_iff (own other : UInt8) : other &&& ~~~ own ≠ 0 ↔
    ∃ k < 8, bitOf other k = true ∧ bitOf own k = false := by
  have bits : ∀ j, (other &&& ~~~ own).toNat.testBit j =
      (other.toNat.testBit j && (decide (j < 8) && !own.toNat.testBit j)) := by
    intro j
    rw [UInt8.toNat_and, Nat.testBit_and, testBit_not]
  constructor
  · intro meets
    obtain ⟨j, held⟩ := Nat.exists_testBit_of_ne_zero (fun zero => meets (UInt8.toNat_inj.mp zero))
    rw [bits, Bool.and_eq_true, Bool.and_eq_true, decide_eq_true_eq] at held
    obtain ⟨theirs, inside, ours⟩ := held
    refine ⟨7 - j, by omega, ?_, ?_⟩
    · rw [bitOf, Nat.sub_sub_self (by omega)]
      exact theirs
    · rw [bitOf, Nat.sub_sub_self (by omega)]
      simpa using ours
  · rintro ⟨k, inside, theirs, ours⟩ none
    have held := bits (7 - k)
    rw [none] at held
    unfold bitOf at theirs ours
    simp [theirs, ours] at held
    omega

/-- Some bit is set there that is clear here, among the bytes that both have. -/
theorem lacksSomeOf_iff (ours theirs : Bitfield) : ours.lacksSomeOf theirs = true ↔
    ∃ index, index / 8 < ours.bits.length ∧ packedBit theirs.bits index = true ∧
      packedBit ours.bits index = false := by
  unfold lacksSomeOf
  simp only [List.any_eq_true, Prod.exists, bne_iff_ne, and_not_ne_zero_iff]
  constructor
  · rintro ⟨own, other, paired, k, inside, theirs', ours'⟩
    obtain ⟨n, bound, here⟩ := List.mem_iff_getElem.mp paired
    rw [List.getElem_zip, Prod.mk.injEq] at here
    obtain ⟨rfl, rfl⟩ := here
    rw [List.length_zip] at bound
    have place : (8 * n + k) / 8 = n := by omega
    have offset : (8 * n + k) % 8 = k := by omega
    refine ⟨8 * n + k, by omega, ?_, ?_⟩
    · rw [packedBit, place, offset, List.getElem?_eq_getElem (by omega)]
      exact theirs'
    · rw [packedBit, place, offset, List.getElem?_eq_getElem (by omega)]
      exact ours'
  · rintro ⟨index, bound, theirs', ours'⟩
    have bound' : index / 8 < theirs.bits.length := by
      by_contra past
      rw [packedBit_of_le (by omega)] at theirs'
      contradiction
    rw [packedBit, List.getElem?_eq_getElem (by omega)] at theirs' ours'
    refine ⟨ours.bits[index / 8], theirs.bits[index / 8], ?_, index % 8,
      Nat.mod_lt _ (by decide), theirs', ours'⟩
    refine List.mem_iff_getElem.mpr ⟨index / 8, ?_, List.getElem_zip⟩
    rw [List.length_zip]
    omega

/-- Between bitfields for the same pieces this is the difference of the two sets. -/
theorem Canonical.lacksSomeOf_iff {ours theirs : Bitfield} (own : ours.Canonical)
    (other : theirs.Canonical) (same : ours.pieces = theirs.pieces) :
    ours.lacksSomeOf theirs = true ↔
      ∃ index < ours.size, theirs.has index = true ∧ ours.has index = false := by
  simp only [Bitfield.lacksSomeOf_iff, own.has_eq_packedBit, other.has_eq_packedBit]
  constructor
  · rintro ⟨index, bound, held, lacking⟩
    refine ⟨index, ?_, held, lacking⟩
    by_contra past
    have clear := other.spare index (by rw [size, ← same]; exact Nat.not_lt.mp past)
    rw [clear] at held
    contradiction
  · rintro ⟨index, inside, held, lacking⟩
    exact ⟨index, own.place_lt inside, held, lacking⟩

end Bitfield

end PeerWire

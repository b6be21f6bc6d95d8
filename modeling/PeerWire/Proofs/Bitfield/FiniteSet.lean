import Mathlib.Data.Finset.Card
import Mathlib.Data.Finset.Range
import PeerWire.Proofs.Bitfield

/-!
A bitfield is a finite set of the indices below its size, and nothing else. Equality compares
bytes, the count adds up bits and completeness compares two numbers; each of them speaks of
the set only since no bit behind the last piece is ever set. So the bytes of a bitfield that
has come about are determined by its size and its members, in whatever order these were added.

`lacksSomeOf` is the difference of two such sets, over the bytes that both have: for different
sizes it looks at the pieces behind the smaller size that share its last byte, and at no others.
-/

namespace PeerWire

/-! ### Bytes are their bits -/

theorem bitOf_ext {a b : UInt8} (same : ∀ k < 8, bitOf a k = bitOf b k) : a = b := by
  have small (byte : UInt8) {j : Nat} (beyond : 8 ≤ j) : byte.toNat < 2 ^ j :=
    Nat.lt_of_lt_of_le byte.toNat_lt (Nat.pow_le_pow_right (by decide) beyond)
  refine UInt8.toNat_inj.mp (Nat.eq_of_testBit_eq fun j => ?_)
  rcases Nat.lt_or_ge j 8 with inside | beyond
  · have bit := same (7 - j) (by omega)
    rwa [bitOf, bitOf, Nat.sub_sub_self (by omega)] at bit
  · rw [Nat.testBit_lt_two_pow (small a beyond), Nat.testBit_lt_two_pow (small b beyond)]

theorem packedBit_ext {a b : List UInt8} (length : a.length = b.length)
    (same : ∀ index, packedBit a index = packedBit b index) : a = b := by
  refine List.ext_getElem length fun n insideA insideB => bitOf_ext fun k inside => ?_
  have bit := same (8 * n + k)
  have place : (8 * n + k) / 8 = n := by omega
  have offset : (8 * n + k) % 8 = k := by omega
  rwa [packedBit, packedBit, place, offset, List.getElem?_eq_getElem insideA,
    List.getElem?_eq_getElem insideB] at bit

theorem lt_of_packedBit {bytes : List UInt8} {index : Nat} (held : packedBit bytes index = true) :
    index < 8 * bytes.length := by
  by_contra beyond
  rw [packedBit_of_le (Nat.not_lt.mp beyond)] at held
  contradiction

namespace Bitfield

/-- Canonical bitfields of one size with the same pieces are the same bytes. -/
theorem Canonical.ext {a b : Bitfield} (canonical : a.Canonical) (canonical' : b.Canonical)
    (pieces : a.pieces = b.pieces) (same : ∀ index, a.has index = b.has index) : a = b := by
  have bits : a.bits = b.bits := by
    refine packedBit_ext ?_ ?_
    · rw [canonical.length, canonical'.length, pieces]
    · intro index
      rw [← canonical.has_eq_packedBit, ← canonical'.has_eq_packedBit, same]
  cases a
  cases b
  simp_all

theorem lt_of_has {b : Bitfield} {index : Nat} (held : b.has index = true) : index < b.size := by
  rw [has_eq, Bool.and_eq_true, decide_eq_true_eq] at held
  exact held.1

/-! ### Pieces that are added one after the other -/

/-- What is there after a piece was to be added; one that does not exist changes nothing. -/
def afterSet (b : Bitfield) (index : Nat) : Bitfield :=
  (b.set index).toOption.getD b

/-- What is there after pieces were to be added one after the other. -/
def setEach (b : Bitfield) (indices : List Nat) : Bitfield :=
  indices.foldl afterSet b

theorem afterSet_cases (b : Bitfield) (index : Nat) :
    (index < b.size ∧ b.set index = .ok (b.afterSet index)) ∨
      (b.size ≤ index ∧ b.set index = .error (.pieceOutOfRange index b.size) ∧
        b.afterSet index = b) := by
  rcases Nat.lt_or_ge index b.size with inside | beyond
  · have added := set_eq_ok_iff.mpr ⟨inside, rfl⟩
    refine .inl ⟨inside, ?_⟩
    rw [afterSet, added]
    rfl
  · have refused : b.set index = .error (.pieceOutOfRange index b.size) := if_pos beyond
    refine .inr ⟨beyond, refused, ?_⟩
    rw [afterSet, refused]
    rfl

theorem pieces_set {b b' : Bitfield} {index : Nat} (added : b.set index = .ok b') :
    b'.pieces = b.pieces := by
  obtain ⟨-, rfl⟩ := set_eq_ok_iff.mp added
  rfl

theorem length_bits_set {b b' : Bitfield} {index : Nat} (added : b.set index = .ok b') :
    b'.bits.length = b.bits.length := by
  obtain ⟨-, rfl⟩ := set_eq_ok_iff.mp added
  exact List.length_modify ..

theorem Built.afterSet {b : Bitfield} (built : b.Built) (index : Nat) :
    (b.afterSet index).Built := by
  rcases b.afterSet_cases index with ⟨-, added⟩ | ⟨-, -, same⟩
  · exact .added built added
  · rwa [same]

theorem Built.setEach {b : Bitfield} (built : b.Built) (indices : List Nat) :
    (b.setEach indices).Built := by
  induction indices generalizing b with
  | nil => exact built
  | cons index rest ih => exact ih (built.afterSet index)

theorem pieces_afterSet (b : Bitfield) (index : Nat) : (b.afterSet index).pieces = b.pieces := by
  rcases b.afterSet_cases index with ⟨-, added⟩ | ⟨-, -, same⟩
  · exact pieces_set added
  · rw [same]

theorem pieces_setEach (b : Bitfield) (indices : List Nat) :
    (b.setEach indices).pieces = b.pieces := by
  induction indices generalizing b with
  | nil => rfl
  | cons index rest ih => exact (ih _).trans (b.pieces_afterSet index)

theorem Built.has_afterSet {b : Bitfield} (built : b.Built) (index other : Nat) :
    (b.afterSet index).has other =
      (b.has other || (decide (other < b.size) && decide (other = index))) := by
  rcases b.afterSet_cases index with ⟨inside, added⟩ | ⟨beyond, -, same⟩
  · rw [(built.canonical.set added).2 other]
    by_cases equal : other = index
    · simp [equal, inside]
    · simp [equal]
  · have apart : (decide (other < b.size) && decide (other = index)) = false := by
      simp only [Bool.and_eq_false_iff, decide_eq_false_iff_not]
      omega
    rw [same, apart, Bool.or_false]

/-- The members of the whole are those of the start and those that were added. -/
theorem Built.has_setEach {b : Bitfield} (built : b.Built) (indices : List Nat) (other : Nat) :
    (b.setEach indices).has other =
      (b.has other || (decide (other < b.size) && decide (other ∈ indices))) := by
  induction indices generalizing b with
  | nil => simp [Bitfield.setEach]
  | cons index rest ih =>
      have next := ih (built.afterSet index)
      rw [size, b.pieces_afterSet index, built.has_afterSet index other] at next
      refine next.trans ?_
      rw [size, Bool.or_assoc, ← Bool.and_or_distrib_left, ← Bool.decide_or]
      simp only [List.mem_cons]

/-- Whoever adds every piece, in any order, has the full bitfield. -/
theorem setEach_empty_eq_full (pieces : UInt64) {order : List Nat}
    (every : ∀ index < pieces.toNat, index ∈ order) :
    (empty pieces).setEach order = full pieces := by
  have built := (Built.empty pieces).setEach order
  refine built.canonical.ext (canonical_full pieces) (pieces_setEach _ _) ?_
  intro index
  rw [(Built.empty pieces).has_setEach, has_empty, Bool.false_or, has_full]
  by_cases inside : index < pieces.toNat
  · simp [size, empty, inside, every index inside]
  · simp [size, empty, inside]

/-! ### The set itself -/

/-- The count is the number of pieces that are held. -/
theorem Canonical.count_eq_card {b : Bitfield} (canonical : b.Canonical) :
    b.count = ((Finset.range b.size).filter fun index => b.has index = true).card := by
  have once : ((List.range b.size).filter b.has).Nodup := List.nodup_range.filter _
  have same : (Finset.range b.size).filter (fun index => b.has index = true) =
      ((List.range b.size).filter b.has).toFinset := by
    ext index
    simp
  rw [same, List.toFinset_card_of_nodup once, ← List.countP_eq_length_filter, canonical.count_eq]

/-- A bitfield is a finite set of indices, and its bytes are determined by this set.

In whatever way it has come about, and whatever was added to it since, there or not: it has the
bytes that its size asks for and no bit behind its last piece. A piece can be added exactly if
it is one, which changes this piece and no other; otherwise nothing changes. Bitfields are equal
exactly if their sizes and their members are. Adding all pieces in any order makes the full one.
The count is the number of members, and it is complete exactly if every piece is a member. -/
theorem is_finite_set {b : Bitfield} (built : b.Built) (indices : List Nat) :
    let x := b.setEach indices
    (x.bits.length = (x.size + 7) / 8 ∧ ∀ index, x.size ≤ index → packedBit x.bits index = false) ∧
      (∀ index, (index < x.size → ∃ x', x.set index = .ok x' ∧ x'.size = x.size ∧
          x'.has index = true ∧ ∀ other, other ≠ index → x'.has other = x.has other) ∧
        (x.size ≤ index → x.set index = .error (.pieceOutOfRange index x.size) ∧
          x.afterSet index = x)) ∧
      (∀ y : Bitfield, y.Built →
        (x = y ↔ x.size = y.size ∧ ∀ index, x.has index = y.has index)) ∧
      (∀ (pieces : UInt64) (order : List Nat), (∀ index < pieces.toNat, index ∈ order) →
        (empty pieces).setEach order = full pieces) ∧
      x.count = ((Finset.range x.size).filter fun index => x.has index = true).card ∧
      (x.isComplete = true ↔ ∀ index < x.size, x.has index = true) := by
  intro x
  have here : x.Built := built.setEach indices
  have canonical := here.canonical
  refine ⟨⟨?_, canonical.spare⟩, ?_, ?_, ?_, ?_, ?_⟩
  · rw [canonical.length, toNat_byteCount]
    rfl
  · intro index
    rcases x.afterSet_cases index with ⟨inside, added⟩ | ⟨beyond, refused, same⟩
    · refine ⟨fun _ => ⟨_, added, ?_, ?_, ?_⟩, fun beyond => absurd inside (Nat.not_lt.mpr beyond)⟩
      · rw [size, pieces_set added]
        rfl
      · rw [(canonical.set added).2, decide_eq_true rfl, Bool.or_true]
      · intro other apart
        rw [(canonical.set added).2, decide_eq_false apart, Bool.or_false]
    · exact ⟨fun inside => absurd inside (Nat.not_lt.mpr beyond), fun _ => ⟨refused, same⟩⟩
  · intro y built'
    constructor
    · rintro rfl
      exact ⟨rfl, fun _ => rfl⟩
    · rintro ⟨sizes, same⟩
      exact canonical.ext built'.canonical (UInt64.toNat_inj.mp sizes) same
  · intro pieces order every
    exact setEach_empty_eq_full pieces every
  · exact canonical.count_eq_card
  · exact canonical.isComplete_iff

/-- Of what is added, a piece that there is not and one that is there already change nothing. -/
theorem is_finite_set_refusing :
    ∃ b : Bitfield, ofBytes? 10 [160, 64] = .ok b ∧ (b.setEach [3, 10, 9]).bits = [176, 64] ∧
      ((Finset.range 10).filter fun index => (b.setEach [3, 10, 9]).has index = true).card = 4 := by
  have accepted : ofBytes? 10 [160, 64] = .ok { pieces := 10, bits := [160, 64] } := rfl
  refine ⟨_, accepted, rfl, ?_⟩
  obtain ⟨-, -, -, -, count, -⟩ := is_finite_set (.read accepted) [3, 10, 9]
  exact count.symm

/-! ### What one set lacks of another -/

section Difference

variable {a b : Bitfield}

/-- The difference of two bitfields of any sizes goes over the bytes that both have. -/
theorem Built.lacksSomeOf_iff (ours : a.Built) (theirs : b.Built) : a.lacksSomeOf b = true ↔
    ∃ index < 8 * min a.bits.length b.bits.length, b.has index = true ∧ a.has index = false := by
  simp only [Bitfield.lacksSomeOf_iff, ours.canonical.has_eq_packedBit,
    theirs.canonical.has_eq_packedBit]
  constructor
  · rintro ⟨index, inside, held, lacking⟩
    have inside' := lt_of_packedBit held
    exact ⟨index, by omega, held, lacking⟩
  · rintro ⟨index, inside, held, lacking⟩
    exact ⟨index, by omega, held, lacking⟩

/-- Between bitfields of one size it is the difference of their sets. -/
theorem Built.lacksSomeOf_iff_of_size (ours : a.Built) (theirs : b.Built) (same : a.size = b.size) :
    a.lacksSomeOf b = true ↔ ∃ index, b.has index = true ∧ a.has index = false := by
  have pieces : a.pieces = b.pieces := UInt64.toNat_inj.mp same
  rw [ours.canonical.lacksSomeOf_iff theirs.canonical pieces]
  constructor
  · rintro ⟨index, -, differs⟩
    exact ⟨index, differs⟩
  · rintro ⟨index, held, lacking⟩
    exact ⟨index, same ▸ lt_of_has held, held, lacking⟩

/-- Whoever has more of it, and lacks no less, still lacks something. -/
theorem Built.lacksSomeOf_mono {a' b' : Bitfield} (ours : a.Built) (theirs : b.Built)
    (ours' : a'.Built) (theirs' : b'.Built) (length : a'.bits.length = a.bits.length)
    (length' : b'.bits.length = b.bits.length)
    (fewer : ∀ index, a'.has index = true → a.has index = true)
    (more : ∀ index, b.has index = true → b'.has index = true)
    (lacks : a.lacksSomeOf b = true) : a'.lacksSomeOf b' = true := by
  obtain ⟨index, inside, held, lacking⟩ := (ours.lacksSomeOf_iff theirs).mp lacks
  apply (ours'.lacksSomeOf_iff theirs').mpr
  refine ⟨index, by rwa [length, length'], more index held, ?_⟩
  by_contra held'
  rw [fewer index (by simpa using held')] at lacking
  contradiction

/-- What was held before a piece was added is held after it. -/
theorem Built.has_set {b' : Bitfield} (built : b.Built) {index : Nat}
    (added : b.set index = .ok b') (other : Nat) (held : b.has other = true) :
    b'.has other = true := by
  rw [(built.canonical.set added).2, held, Bool.true_or]

/-- Lacking something of another bitfield is the difference of the two sets, over the bytes that
both have.

So between bitfields of one size it holds exactly if the other one holds a piece that this one
does not. A complete bitfield lacks nothing of another of its size, and none lacks anything of
itself. A piece that is added to the other bitfield never ends it, and one that is added to this
bitfield never begins it. -/
theorem lacksSomeOf_is_difference (ours : a.Built) (theirs : b.Built) :
    (a.lacksSomeOf b = true ↔ ∃ index < 8 * min a.bits.length b.bits.length,
        b.has index = true ∧ a.has index = false) ∧
      (a.size = b.size →
        (a.lacksSomeOf b = true ↔ ∃ index, b.has index = true ∧ a.has index = false) ∧
          (a.isComplete = true → a.lacksSomeOf b = false)) ∧
      a.lacksSomeOf a = false ∧
      (∀ index b', b.set index = .ok b' → a.lacksSomeOf b = true → a.lacksSomeOf b' = true) ∧
      (∀ index a', a.set index = .ok a' → a.lacksSomeOf b = false →
        a'.lacksSomeOf b = false) := by
  refine ⟨ours.lacksSomeOf_iff theirs, ?_, ?_, ?_, ?_⟩
  · intro same
    have lacks := ours.lacksSomeOf_iff_of_size theirs same
    refine ⟨lacks, ?_⟩
    intro complete
    by_contra some
    obtain ⟨index, held, lacking⟩ := lacks.mp (by simpa using some)
    rw [ours.canonical.has_of_isComplete complete (same ▸ lt_of_has held)] at lacking
    contradiction
  · by_contra some
    obtain ⟨index, -, held, lacking⟩ := (ours.lacksSomeOf_iff ours).mp (by simpa using some)
    rw [held] at lacking
    contradiction
  · intro index b' added lacks
    exact ours.lacksSomeOf_mono theirs ours (.added theirs added) rfl (length_bits_set added)
      (fun _ held => held) (theirs.has_set added) lacks
  · intro index a' added lacks
    by_contra some
    rw [Built.lacksSomeOf_mono (.added ours added) theirs ours theirs (length_bits_set added).symm
      rfl (ours.has_set added) (fun _ held => held) (by simpa using some)] at lacks
    contradiction

/-- Sizes may differ: the last byte of the smaller one is compared as a whole. -/
theorem lacksSomeOf_is_difference_shared :
    ∃ a b : Bitfield, ofBytes? 4 [240] = .ok a ∧ ofBytes? 8 [248] = .ok b ∧
      a.isComplete = true ∧ a.lacksSomeOf b = true ∧ b.lacksSomeOf a = false := by
  have ours : ofBytes? 4 [240] = .ok { pieces := 4, bits := [240] } := rfl
  have theirs : ofBytes? 8 [248] = .ok { pieces := 8, bits := [248] } := rfl
  refine ⟨_, _, ours, theirs, rfl, ?_, rfl⟩
  exact (lacksSomeOf_is_difference (.read ours) (.read theirs)).1.mpr ⟨4, by decide⟩

end Difference

end Bitfield

end PeerWire

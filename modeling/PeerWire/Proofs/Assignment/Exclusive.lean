import Mathlib.Order.Bounds.Basic
import PeerWire.Proofs.Assignment
import PeerWire.Proofs.Bitfield

/-!
What the scheduler asks for, and what it takes into account. A piece is decided on when a
request is taken up, as the least that the peer holds, that we lack and that nobody fetches;
the answer goes out later, when its channel has room, while what we hold may already be
something else. `DecidedOn` leads from the task while it answers back to the moment of the
decision. An answer is always preceded by its decision, and a piece that somebody fetches is
not decided on, so that two answers with one piece have a delivery of it, or a peer that is
gone, between them.
-/

namespace PeerWire

namespace Bitfield

/-- The pieces that were added to a bitfield, where it has such pieces. -/
structure Filled (field : Bitfield) (added : Nat → Prop) (field' : Bitfield) : Prop where
  pieces : field'.pieces = field.pieces
  canonical : field'.Canonical
  has : ∀ index, field'.has index = true ↔
    field.has index = true ∨ index < field.size ∧ added index

section Filled

variable {field field' field'' : Bitfield} {added more : Nat → Prop}

theorem Filled.none (canonical : field.Canonical)
    (nothing : ∀ index, index < field.size → ¬ added index) : field.Filled added field where
  pieces := rfl
  canonical := canonical
  has index := (or_iff_left fun both => nothing index both.1 both.2).symm

theorem Filled.trans (first : field.Filled added field') (second : field'.Filled more field'') :
    field.Filled (fun index => added index ∨ more index) field'' where
  pieces := second.pieces.trans first.pieces
  canonical := second.canonical
  has index := by
    have size : field'.size = field.size := congrArg UInt64.toNat first.pieces
    rw [second.has, first.has, size, or_assoc, ← and_or_left]

end Filled

end Bitfield

namespace Scheduler

/-- The piece could be assigned to a peer that holds `remote`. -/
def Assignable (s : Scheduler) (field remote : Bitfield) (index : Nat) : Prop :=
  remote.has index = true ∧ field.has index = false ∧ ∀ piece ∈ s.inFlight, piece.toNat ≠ index

section Choice

variable (s : Scheduler) {field remote : Bitfield}

theorem not_contains_iff {index : Nat} (inside : index < 2 ^ 32) :
    s.inFlight.contains (UInt32.ofNat index) = false ↔
      ∀ piece ∈ s.inFlight, piece.toNat ≠ index := by
  rw [Bool.eq_false_iff, ne_eq, List.contains_iff_mem]
  constructor
  · rintro absent piece listed rfl
    rw [UInt32.ofNat_toNat] at absent
    exact absent listed
  · intro other listed
    exact other _ listed (UInt32.toNat_ofNat_of_lt' inside)

/-- The test that the search makes, for a bitfield whose indices are piece numbers. -/
theorem assignable_iff (small : remote.size ≤ 2 ^ 32) (index : Nat) :
    (remote.has index && (!field.has index && !s.inFlight.contains (UInt32.ofNat index))) = true ↔
      s.Assignable field remote index := by
  unfold Assignable
  rw [Bool.and_eq_true, Bool.and_eq_true, Bool.not_eq_true', Bool.not_eq_true']
  refine and_congr_right fun held => and_congr_right fun lacking => ?_
  apply s.not_contains_iff
  rw [Bitfield.has, Bool.and_eq_true, decide_eq_true_eq] at held
  omega

theorem Assignable.lt_size {index : Nat} (assignable : s.Assignable field remote index) :
    index < remote.size := by
  have held := assignable.1
  rw [Bitfield.has, Bool.and_eq_true, decide_eq_true_eq] at held
  exact held.1

/-- Nothing is chosen only if there is nothing to assign. -/
theorem not_assignable_of_choose? (small : remote.size ≤ 2 ^ 32)
    (nothing : s.choose? field remote = none) (index : Nat) :
    ¬ s.Assignable field remote index := by
  intro assignable
  rw [choose?, Option.map_eq_none_iff, Bitfield.firstHeld?, List.find?_range_eq_none] at nothing
  have passed := nothing index (assignable.lt_size s)
  rw [Bool.not_eq_true', Bool.eq_false_iff] at passed
  exact passed ((s.assignable_iff small index).mpr assignable)

/-- What is chosen is the least of the pieces that can be assigned. -/
theorem isLeast_of_choose? (small : remote.size ≤ 2 ^ 32) {piece : UInt32}
    (chosen : s.choose? field remote = some piece) :
    IsLeast {index | s.Assignable field remote index} piece.toNat := by
  rw [choose?, Option.map_eq_some_iff] at chosen
  obtain ⟨index, found, rfl⟩ := chosen
  rw [Bitfield.firstHeld?, List.find?_range_eq_some] at found
  obtain ⟨fits, -, lower⟩ := found
  have assignable := (s.assignable_iff small index).mp fits
  have inside := assignable.lt_size s
  rw [UInt32.toNat_ofNat_of_lt' (by rw [UInt32.size]; omega)]
  constructor
  · exact assignable
  · intro other fitsToo
    by_contra below
    have passed := lower other (by omega)
    rw [(s.assignable_iff small other).mpr fitsToo] at passed
    contradiction

/-- What nobody fetches is as free as before once its reservation is released. -/
theorem release_reserve {piece : UInt32} (free : piece ∉ s.inFlight) :
    (s.reserve piece).release piece = s := by
  have others : s.inFlight.filter (· ≠ piece) = s.inFlight := by
    rw [List.filter_eq_self]
    rintro other listed
    exact decide_eq_true fun same => free (same ▸ listed)
  rw [reserve, if_neg free, release, List.filter_cons_of_neg (by simp), others]

/-- A delivered block adds its piece to what we hold, if there is such a piece. -/
theorem filled_onDelivery (canonical : field.Canonical) (delivery : Delivery) :
    field.Filled (fun index => ∃ addr block, .block addr block = delivery ∧
      block.piece.toNat = index) (s.onDelivery field delivery).2 := by
  cases delivery with
  | disconnected addr => exact .none canonical (by simp)
  | block addr block =>
      have named : ∀ index, (∃ addr' block', Delivery.block addr' block' = .block addr block ∧
          block'.piece.toNat = index) ↔ block.piece.toNat = index := by
        intro index
        constructor
        · rintro ⟨addr', block', same, rfl⟩
          cases same
          rfl
        · intro same
          exact ⟨addr, block, rfl, same⟩
      simp only [onDelivery, named]
      cases added : field.set block.piece.toNat with
      | ok field' =>
          obtain ⟨inside, same⟩ := Bitfield.set_eq_ok_iff.mp added
          obtain ⟨canonical', held⟩ := canonical.set added
          refine ⟨by rw [same], canonical', fun index => ?_⟩
          rw [held, Bool.or_eq_true, decide_eq_true_eq]
          refine or_congr_right ⟨?_, fun told => told.2.symm⟩
          rintro rfl
          exact ⟨inside, rfl⟩
      | error fault =>
          have outside : ¬ block.piece.toNat < field.size := by
            intro inside
            cases added.symm.trans (Bitfield.set_eq_ok_iff.mpr ⟨inside, rfl⟩)
          refine .none canonical ?_
          rintro index inside rfl
          exact outside inside

end Choice

end Scheduler

namespace Assignment

/-- What waits in an answer channel. -/
def waiting (a : Assignment) (channel : Nat) : List Message :=
  (a.answers[channel]?.map Mailbox.items).getD []

theorem Event.eq_turn_or_outside (event : Event) :
    (∃ inbox, event = .turn inbox) ∨ ∀ inbox, event ≠ .turn inbox := by
  cases event with
  | turn inbox => exact .inl ⟨inbox, rfl⟩
  | _ => exact .inr nofun

/-! ### From an answer back to its decision -/

/-- The piece was decided on at the end of `past`, in answer to the request that was next
then, and since then the task has only tried to answer. -/
structure DecidedOn (a : Assignment) (history past : List Event) (request : PieceRequest)
    (piece : UInt32) : Prop where
  earlier : ∃ inbox waits, history = past ++ .turn inbox :: waits
  next : ∃ later, (a.run past).requests.items = request :: later
  chosen : (a.run past).scheduler.choose? (a.run past).field request.remote = some piece
  deeds : a.deeds history = a.deeds past ++ [.assigned request piece]
  scheduler : (a.run history).scheduler = (a.run past).scheduler.reserve piece

section Decisions

variable {a : Assignment} {history past : List Event} {request : PieceRequest} {piece : UInt32}

/-- An event of which nothing is seen leaves the decision as it is. -/
theorem DecidedOn.concat (decided : a.DecidedOn history past request piece) {event : Event}
    (unseen : (a.run history).deed? event = none)
    (same : ((a.run history).after event).scheduler = (a.run history).scheduler) :
    a.DecidedOn (history ++ [event]) past request piece where
  earlier := by
    obtain ⟨inbox, waits, rfl⟩ := decided.earlier
    exact ⟨inbox, waits ++ [event], by simp⟩
  next := decided.next
  chosen := decided.chosen
  deeds := by rw [deeds_concat, unseen, decided.deeds, Option.toList_none, List.append_nil]
  scheduler := by rw [run_concat, same, decided.scheduler]

/-- While the task answers with a piece, it has decided on it. -/
theorem decidedOn_of_answering (idle : a.phase = .idle) {replyTo : Nat}
    (answering : (a.run history).phase = .answering piece replyTo) :
    ∃ past request, a.DecidedOn history past request piece ∧ request.replyTo = replyTo := by
  induction history using List.reverseRecOn with
  | nil => cases idle.symm.trans answering
  | append_singleton history event ih =>
      rw [run_concat] at answering
      rcases event.eq_turn_or_outside with ⟨inbox, rfl⟩ | outside
      · have turned := (a.run history).turned_turn inbox
        change (((a.run history).turn inbox).getD (a.run history)).phase = _ at answering
        generalize seen : (a.run history).turnDeed? inbox = deed at turned
        generalize led : ((a.run history).turn inbox).getD (a.run history) = a' at turned answering
        cases turned with
        | waits =>
            obtain ⟨past, request, decided, theirs⟩ := ih answering
            exact ⟨past, request, decided.concat seen (congrArg Assignment.scheduler led), theirs⟩
        | queued same found full =>
            obtain ⟨past, request, decided, theirs⟩ := ih answering
            have kept := (congrArg Assignment.scheduler led :)
            exact ⟨past, request, decided.concat seen kept, theirs⟩
        | @assigned request later piece' free next chosen =>
            cases answering
            refine ⟨history, request, ⟨⟨inbox, [], rfl⟩, ⟨later, next⟩, chosen, ?_, ?_⟩, rfl⟩
            · rw [deeds_concat]
              exact congrArg (a.deeds history ++ ·.toList) seen
            · rw [run_concat]
              exact congrArg Assignment.scheduler led
        | passedOver free | took free => cases free.symm.trans answering
        | _ => cases answering
      · obtain ⟨unseen, scheduler, phase⟩ := after_of_outside (a.run history) outside
        obtain ⟨past, request, decided, theirs⟩ := ih (phase.symm.trans answering)
        exact ⟨past, request, decided.concat unseen scheduler, theirs⟩

/-- The piece that was decided on was the least that could be assigned. -/
theorem DecidedOn.isLeast (decided : a.DecidedOn history past request piece)
    (small : request.remote.size ≤ 2 ^ 32) :
    IsLeast {index | (a.run past).scheduler.Assignable (a.run past).field request.remote index}
      piece.toNat :=
  (a.run past).scheduler.isLeast_of_choose? small decided.chosen

/-- When the answer is withdrawn, the books are as they were before the decision. -/
theorem DecidedOn.withdrawn (decided : a.DecidedOn history past request piece) :
    (a.run history).scheduler.release piece = (a.run past).scheduler := by
  rw [decided.scheduler]
  exact Scheduler.release_reserve _ (Scheduler.not_mem_of_choose _ _ decided.chosen)

end Decisions

/-! ### The answers -/

section Answers

variable {a a' : Assignment} {deed : Option Deed}

theorem waiting_of_answers (same : a'.answers = a.answers) (channel : Nat) :
    a'.waiting channel = a.waiting channel := by
  rw [waiting, waiting, same]

/-- One mailbox is replaced by another that has these messages more. -/
theorem waiting_set {replyTo : Nat} {box box' : Mailbox Message} {more : List Message}
    (found : a.answers[replyTo]? = some box) (items : box'.items = box.items ++ more)
    (set : a'.answers = a.answers.set replyTo box') (channel : Nat) :
    a'.waiting channel = a.waiting channel ++ if channel = replyTo then more else [] := by
  unfold waiting
  rw [set]
  by_cases same : channel = replyTo
  · have inside : replyTo < a.answers.length := (List.getElem?_eq_some_iff.mp found).1
    rw [if_pos same, same, found, List.getElem?_set_self inside]
    exact items
  · rw [if_neg same, List.getElem?_set_ne (Ne.symm same), List.append_nil]

/-- While the task answers, its step puts the answer into the channel or nothing at all. -/
theorem waiting_answer {piece : UInt32} {replyTo : Nat}
    (answering : a.phase = .answering piece replyTo) (inbox : Inbox) (channel : Nat) :
    (a.after (.turn inbox)).waiting channel = a.waiting channel ++
      if a.turnDeed? inbox = some (.answered piece) ∧ channel = replyTo then
        [a.scheduler.requestFor piece] else [] := by
  have step : a.after (.turn inbox) = (a.answer piece replyTo).getD a := by
    simp only [after, turn, answering]
  rw [step]
  cases found : a.answers[replyTo]? with
  | none =>
      have deed : a.turnDeed? inbox = some (.withdrawn piece) := by
        simp only [turnDeed?, answering, found]
      rw [deed, if_neg (by simp), List.append_nil]
      exact waiting_of_answers (by simp only [answer, found, Option.getD_some]) channel
  | some box =>
      have items := box.items_send .scheduler (a.scheduler.requestFor piece)
      have put : ∀ a' : Assignment, a'.answers = a.answers.set replyTo _ →
          a'.waiting channel = _ := fun a' set => waiting_set found items set channel
      cases receipt : (box.send .scheduler (a.scheduler.requestFor piece)).1 with
      | accepted =>
          have deed : a.turnDeed? inbox = some (.answered piece) := by
            simp only [turnDeed?, answering, found, receipt]
          simp only [receipt, if_true] at put
          simp only [deed, true_and]
          apply put
          simp only [answer, found, receipt, Option.getD_some]
      | closed =>
          have deed : a.turnDeed? inbox = some (.withdrawn piece) := by
            simp only [turnDeed?, answering, found, receipt]
          simp only [receipt, reduceCtorEq, if_false, ite_self] at put
          rw [deed, if_neg (by simp)]
          apply put
          simp only [answer, found, receipt, Option.getD_some]
      | full =>
          have deed : a.turnDeed? inbox = none := by
            simp only [turnDeed?, answering, found, receipt]
          simp only [receipt, reduceCtorEq, if_false, ite_self] at put
          rw [deed, if_neg (by simp)]
          simp only [answer, found, receipt]
          split
          · exact (List.append_nil _).symm
          · apply put
            rfl

/-- A task that is not answering puts nothing into the answer channels. -/
theorem waiting_of_not_answering (quiet : ∀ piece replyTo, a.phase ≠ .answering piece replyTo)
    (inbox : Inbox) (channel : Nat) :
    (a.after (.turn inbox)).waiting channel = a.waiting channel := by
  have turned := a.turned_turn inbox
  apply waiting_of_answers
  change ((a.turn inbox).getD a).answers = a.answers
  generalize a.turnDeed? inbox = deed at turned
  generalize (a.turn inbox).getD a = a' at turned
  cases turned with
  | answered answering | withdrawn answering | queued answering =>
      exact absurd answering (quiet _ _)
  | _ => rfl

/-- A step of the task that is no answer puts nothing into the answer channels. -/
theorem waiting_of_not_answered {inbox : Inbox}
    (silent : ∀ piece, a.turnDeed? inbox ≠ some (.answered piece)) (channel : Nat) :
    (a.after (.turn inbox)).waiting channel = a.waiting channel := by
  cases phase : a.phase with
  | answering piece replyTo =>
      rw [waiting_answer phase, if_neg fun both => silent piece both.1, List.append_nil]
  | _ =>
      apply waiting_of_not_answering
      rw [phase]
      exact nofun

end Answers

/-! ### One at a time -/

/-- The deed ends the answering with a piece. -/
def Deed.settles (piece : UInt32) : Deed → Bool
  | .answered other | .withdrawn other => other = piece
  | .passedOver _ | .assigned _ _ | .took _ => false

/-- The deed lets go of a piece because it was delivered, or because a peer is gone. -/
def Deed.Releases (piece : UInt32) (deed : Deed) : Prop :=
  (∃ addr block, deed = .took (.block addr block) ∧ block.piece = piece) ∨
    ∃ addr, deed = .took (.disconnected addr)

section Exclusive

variable {a : Assignment} {deeds : List Deed} {piece : UInt32}

/-- Nothing else lets go of a piece, except that its answer may be withdrawn. -/
theorem Deed.eq_withdrawn_of_frees {deed : Deed} (frees : deed.frees piece = true)
    (unreleased : ¬ deed.Releases piece) : deed = .withdrawn piece := by
  cases deed with
  | withdrawn other =>
      obtain rfl : other = piece := by simpa [Deed.frees] using frees
      rfl
  | took delivery =>
      cases delivery with
      | block addr block =>
          exact absurd (.inl ⟨addr, block, rfl, by simpa [Deed.frees] using frees⟩) unreleased
      | disconnected addr => exact absurd (.inr ⟨addr, rfl⟩) unreleased
  | _ => contradiction

/-- Only a task that answers can end that. -/
theorem Turned.answering_of_settles {a' : Assignment} {deed : Deed}
    (turned : Turned a (some deed) a') (settles : deed.settles piece = true) :
    ∃ replyTo, a.phase = .answering piece replyTo := by
  cases turned with
  | @answered other replyTo box answering found room =>
      obtain rfl : other = piece := by simpa [Deed.settles] using settles
      exact ⟨replyTo, answering⟩
  | @withdrawn other replyTo answers answering gone =>
      obtain rfl : other = piece := by simpa [Deed.settles] using settles
      exact ⟨replyTo, answering⟩
  | _ => contradiction

/-- Every answer, and every withdrawal, comes right after the decision on its piece. -/
def Preceded (deeds : List Deed) : Prop :=
  ∀ earlier deed later piece, deeds = earlier ++ deed :: later → deed.settles piece = true →
    ∃ before request, earlier = before ++ [.assigned request piece]

theorem preceded_run (idle : a.phase = .idle) (history : List Event) :
    Preceded (a.deeds history) := by
  induction history using List.reverseRecOn with
  | nil => simp [Preceded, deeds]
  | append_singleton history event ih =>
      rw [deeds_concat]
      cases seen : (a.run history).deed? event with
      | none => rwa [Option.toList_none, List.append_nil]
      | some done =>
          intro earlier deed later piece split settles
          rcases concat_eq_append_cons split with ⟨-, rfl, rfl⟩ | ⟨later', -, before⟩
          · rcases event.eq_turn_or_outside with ⟨inbox, rfl⟩ | outside
            · have turned := (a.run history).turned_turn inbox
              rw [show (a.run history).turnDeed? inbox = some deed from seen] at turned
              obtain ⟨replyTo, answering⟩ := turned.answering_of_settles settles
              obtain ⟨past, request, decided, -⟩ := decidedOn_of_answering idle answering
              exact ⟨a.deeds past, request, decided.deeds⟩
            · rw [(after_of_outside _ outside).1] at seen
              contradiction
          · exact ih earlier deed later' piece before settles

/-- Until it is delivered or a peer is gone, a piece that was answered with stays in flight,
and is not decided on again. -/
theorem Books.held_since_answered (books : Books deeds a) (preceded : Preceded deeds)
    {earlier between later : List Deed}
    (split : deeds = earlier ++ .answered piece :: (between ++ later))
    (unreleased : ∀ deed ∈ between, ¬ deed.Releases piece) :
    (heldFor (earlier ++ .answered piece :: between) piece).isSome = true ∧
      ∀ request, (earlier ++ .answered piece :: between).getLast? ≠
        some (.assigned request piece) := by
  induction between using List.reverseRecOn generalizing later with
  | nil =>
      obtain ⟨before, request, rfl⟩ := preceded earlier _ _ piece split (decide_eq_true rfl)
      constructor
      · rw [heldFor_concat, heldFor_concat, Deed.hold_assigned]
        rfl
      · simp
  | append_singleton between deed ih =>
      rw [List.append_assoc] at split
      obtain ⟨unreleasedBefore, unreleasedNow⟩ := List.forall_mem_append.mp unreleased
      obtain ⟨held, notLast⟩ := ih split unreleasedBefore
      have here : deeds = (earlier ++ .answered piece :: between) ++ deed :: later := by
        rw [split]
        simp
      have other : ∀ request, deed ≠ .assigned request piece := by
        rintro request rfl
        rw [books.exclusive _ request piece later here] at held
        contradiction
      have kept : deed.frees piece = false := by
        refine Bool.eq_false_iff.mpr fun frees => ?_
        obtain rfl := Deed.eq_withdrawn_of_frees frees (unreleasedNow deed (by simp))
        obtain ⟨before, request, ends⟩ := preceded _ _ later piece here (decide_eq_true rfl)
        apply notLast request
        rw [ends, List.getLast?_concat]
      rw [← List.cons_append, ← List.append_assoc, heldFor_concat, Deed.hold_of_kept kept other,
        List.getLast?_concat]
      exact ⟨held, fun request same => other request (Option.some.inj same)⟩

/-- Between two answers with the same piece it was delivered, or a peer has gone. -/
theorem Books.released_between (books : Books deeds a) (preceded : Preceded deeds)
    {earlier between later : List Deed}
    (split : deeds = earlier ++ .answered piece :: (between ++ .answered piece :: later)) :
    ∃ deed ∈ between, deed.Releases piece := by
  by_contra none
  have unreleased : ∀ deed ∈ between, ¬ deed.Releases piece := by
    intro deed listed releases
    exact none ⟨deed, listed, releases⟩
  obtain ⟨-, notLast⟩ := books.held_since_answered preceded split unreleased
  have again : deeds = (earlier ++ .answered piece :: between) ++ .answered piece :: later := by
    rw [split]
    simp
  obtain ⟨before, request, ends⟩ := preceded _ _ later piece again (decide_eq_true rfl)
  apply notLast request
  rw [ends, List.getLast?_concat]

end Exclusive

/-! ### What we hold -/

/-- A block of the piece has been delivered. -/
def Delivered (deeds : List Deed) (index : Nat) : Prop :=
  ∃ addr block, .took (.block addr block) ∈ deeds ∧ block.piece.toNat = index

section Held

variable {a a' : Assignment} {deed : Option Deed}

theorem delivered_append (deeds later : List Deed) :
    Delivered (deeds ++ later) = fun index => Delivered deeds index ∨ Delivered later index := by
  funext index
  unfold Delivered
  simp only [List.mem_append, or_and_right, exists_or]

/-- A step of the task changes what we hold by the delivery that it takes, and not otherwise. -/
theorem Turned.filled (turned : Turned a deed a') (canonical : a.field.Canonical) :
    a.field.Filled (Delivered deed.toList) a'.field := by
  cases turned with
  | @took delivery later idle next =>
      unfold Delivered
      simp only [Option.toList_some, List.mem_singleton, Deed.took.injEq]
      exact a.scheduler.filled_onDelivery canonical delivery
  | _ => exact .none canonical (by simp [Delivered])

theorem field_of_outside (a : Assignment) {event : Event} (outside : ∀ inbox, event ≠ .turn inbox)
    (kept : ∀ other, event ≠ .setField other) : (a.after event).field = a.field := by
  cases event with
  | turn inbox => exact absurd rfl (outside inbox)
  | setField other => exact absurd rfl (kept other)
  | request who request =>
      unfold after
      dsimp only
      split <;> rfl
  | deliver who delivery =>
      unfold after
      dsimp only
      split <;> rfl
  | _ => rfl

/-- Without changes from outside, what we hold grows by the pieces that are delivered. -/
theorem filled_run (a : Assignment) (history : List Event) (canonical : a.field.Canonical)
    (inside : ∀ other, .setField other ∉ history) :
    a.field.Filled (Delivered (a.deeds history)) (a.run history).field := by
  induction history using List.reverseRecOn with
  | nil => exact .none canonical (by simp [Delivered, deeds])
  | append_singleton history event ih =>
      have before := ih fun other listed => inside other (List.mem_append_left _ listed)
      have filled : (a.run history).field.Filled (Delivered ((a.run history).deed? event).toList)
          ((a.run history).after event).field := by
        rcases event.eq_turn_or_outside with ⟨inbox, rfl⟩ | outside
        · exact ((a.run history).turned_turn inbox).filled before.canonical
        · have kept : ∀ other, event ≠ .setField other := by
            rintro other rfl
            exact inside other (by simp)
          rw [(after_of_outside _ outside).1, field_of_outside _ outside kept]
          exact .none before.canonical (by simp [Delivered])
      rw [deeds_concat, run_concat, delivered_append]
      exact before.trans filled

/-- What we hold is canonical all the time if whatever is set from outside is. -/
theorem canonical_run {a : Assignment} {history : List Event} (canonical : a.field.Canonical)
    (given : ∀ other, .setField other ∈ history → other.Canonical) :
    (a.run history).field.Canonical := by
  induction history using List.reverseRecOn with
  | nil => exact canonical
  | append_singleton history event ih =>
      have before := ih fun other listed => given other (List.mem_append_left _ listed)
      by_cases set : ∃ other, event = .setField other
      · obtain ⟨other, rfl⟩ := set
        rw [run_concat]
        exact given other (by simp)
      · rw [run_concat]
        refine ((a.run history).filled_run [event] before ?_).canonical
        intro other listed
        exact set ⟨other, (List.mem_singleton.mp listed).symm⟩

end Held

/-- A request that is taken up is decided on at once. -/
theorem turnDeed?_of_request {a : Assignment} {request : PieceRequest} {later : List PieceRequest}
    (idle : a.phase = .idle) (next : a.requests.items = request :: later) :
    (∀ piece, a.scheduler.choose? a.field request.remote = some piece →
      a.turnDeed? .requests = some (.assigned request piece)) ∧
    (a.scheduler.choose? a.field request.remote = none →
      a.turnDeed? .requests = some (.passedOver request)) := by
  have wet : a.hasDriedUp = false := by simp [hasDriedUp, next]
  constructor
  · intro piece chosen
    simp [turnDeed?, idle, wet, next, chosen]
  · intro nothing
    simp [turnDeed?, idle, wet, next, nothing]

theorem Turned.of_withdrawn {a a' : Assignment} {piece : UInt32}
    (turned : Turned a (some (.withdrawn piece)) a') :
    a'.scheduler = a.scheduler.release piece := by
  cases turned
  rfl

theorem Turned.blockSize {a a' : Assignment} {deed : Option Deed} (turned : Turned a deed a') :
    a'.scheduler.blockSize = a.scheduler.blockSize := by
  cases turned with
  | assigned idle next chosen =>
      unfold Scheduler.reserve
      split <;> rfl
  | @took delivery later idle next => cases delivery <;> rfl
  | _ => rfl

theorem blockSize_run (a : Assignment) (history : List Event) :
    (a.run history).scheduler.blockSize = a.scheduler.blockSize := by
  induction history using List.reverseRecOn with
  | nil => rfl
  | append_singleton history event ih =>
      rw [run_concat, ← ih]
      rcases event.eq_turn_or_outside with ⟨inbox, rfl⟩ | outside
      · exact ((a.run history).turned_turn inbox).blockSize
      · rw [(after_of_outside _ outside).2.1]

/-- The scheduler hands out the right pieces, each to one peer at a time.

At every moment of every history, whatever its users do in between:

* a request that is taken up is decided on at once: for the least piece that its peer holds,
  that we lack then and that nobody fetches, or for none when there is no such piece;
* the task puts nothing into an answer channel but its answer to the request it has decided
  on last, and that is a request for the first block of that piece;
* when there is nobody to answer any more, the books are as they were before the decision;
* between two answers with the same piece, a block of it was delivered or a peer has gone;
* what we hold is what it was at any earlier moment since which it was not set from outside,
  and exactly the delivered pieces, as far as there are such pieces. -/
theorem assigned_soundly (blockSize : UInt32) (field : Bitfield) (history : List Event)
    (canonical : field.Canonical)
    (given : ∀ other, .setField other ∈ history → other.Canonical) :
    let origin := start blockSize field
    let a := origin.run history
    (∀ request later, a.phase = .idle → a.requests.items = request :: later →
      request.remote.size ≤ 2 ^ 32 →
      let assignable := {index | a.scheduler.Assignable a.field request.remote index}
      (∃ piece, a.turnDeed? .requests = some (.assigned request piece) ∧
        IsLeast assignable piece.toNat) ∨
      a.turnDeed? .requests = some (.passedOver request) ∧ assignable = ∅) ∧
    (∀ inbox piece, a.turnDeed? inbox = some (.answered piece) →
      ∃ past request, origin.DecidedOn history past request piece ∧
        (request.remote.size ≤ 2 ^ 32 →
          IsLeast {index | (origin.run past).scheduler.Assignable (origin.run past).field
            request.remote index} piece.toNat) ∧
        ∀ channel, (a.after (.turn inbox)).waiting channel = a.waiting channel ++
          if channel = request.replyTo then
            [.request { piece, offset := 0, length := blockSize }] else []) ∧
    (∀ inbox, (∀ piece, a.turnDeed? inbox ≠ some (.answered piece)) →
      ∀ channel, (a.after (.turn inbox)).waiting channel = a.waiting channel) ∧
    (∀ inbox piece, a.turnDeed? inbox = some (.withdrawn piece) →
      ∃ past request, origin.DecidedOn history past request piece ∧
        (a.after (.turn inbox)).scheduler = (origin.run past).scheduler) ∧
    (∀ earlier piece between later,
      origin.deeds history = earlier ++ .answered piece :: (between ++ .answered piece :: later) →
      ∃ deed ∈ between, deed.Releases piece) ∧
    ∀ past since, history = past ++ since → (∀ other, .setField other ∉ since) →
      (origin.run past).field.Filled (Delivered ((origin.run past).deeds since)) a.field := by
  intro origin a
  have idle : origin.phase = .idle := rfl
  have books := books_run blockSize field history
  have turned := fun inbox => a.turned_turn inbox
  refine ⟨?_, ?_, fun inbox silent => waiting_of_not_answered silent, ?_, ?_, ?_⟩
  · intro request later idle next small assignable
    obtain ⟨assigns, passesOver⟩ := turnDeed?_of_request idle next
    cases chosen : a.scheduler.choose? a.field request.remote with
    | some piece =>
        exact .inl ⟨piece, assigns piece chosen, a.scheduler.isLeast_of_choose? small chosen⟩
    | none =>
        refine .inr ⟨passesOver chosen, Set.eq_empty_of_forall_notMem ?_⟩
        exact a.scheduler.not_assignable_of_choose? small chosen
  · intro inbox piece answers
    have step := turned inbox
    rw [answers] at step
    have settles : (Deed.answered piece).settles piece = true := decide_eq_true rfl
    obtain ⟨replyTo, answering⟩ := step.answering_of_settles settles
    obtain ⟨past, request, decided, rfl⟩ := decidedOn_of_answering idle answering
    refine ⟨past, request, decided, decided.isLeast, fun channel => ?_⟩
    have blockSize : a.scheduler.blockSize = blockSize := origin.blockSize_run history
    rw [waiting_answer answering, Scheduler.requestFor, blockSize]
    simp only [answers, true_and]
  · intro inbox piece withdraws
    have step := turned inbox
    rw [withdraws] at step
    have settles : (Deed.withdrawn piece).settles piece = true := decide_eq_true rfl
    obtain ⟨replyTo, answering⟩ := step.answering_of_settles settles
    obtain ⟨past, request, decided, -⟩ := decidedOn_of_answering idle answering
    refine ⟨past, request, decided, ?_⟩
    exact step.of_withdrawn.trans decided.withdrawn
  · intro earlier piece between later split
    exact books.released_between (preceded_run idle history) split
  · rintro past since rfl kept
    have run : a = (origin.run past).run since := List.foldl_append
    rw [run]
    refine (origin.run past).filled_run since ?_ kept
    exact canonical_run canonical fun other listed => given other (List.mem_append_left _ listed)

/-- A peer gets a piece, is gone, comes back and gets the same piece again. What we hold was
set once in between, to the same. -/
theorem assigned_soundly_again :
    let request : PieceRequest := ⟨"10.0.0.1:6881", ⟨2, [128]⟩, 0⟩
    let marker : Delivery := .disconnected "10.0.0.1:6881"
    let asks : List Event := [.request none request, .turn .requests, .turn .requests]
    let history : List Event := .connect 16 :: asks ++
      [.setField (.empty 2), .deliver none marker, .turn .deliveries] ++ asks
    let scheduler := start 16384 (.empty 2)
    scheduler.deeds history = [.assigned request 0, .answered 0, .took marker,
      .assigned request 0, .answered 0] ∧
      (∃ deed ∈ [Deed.took marker, .assigned request 0], deed.Releases 0) ∧
      (scheduler.run history).waiting 0 =
        [.request ⟨0, 0, 16384⟩, .request ⟨0, 0, 16384⟩] ∧
      (scheduler.run history).field.has 0 = false := by
  intro request marker asks history scheduler
  have done : scheduler.deeds history = [.assigned request 0, .answered 0, .took marker,
      .assigned request 0, .answered 0] := by decide
  have given : ∀ other, .setField other ∈ history → other.Canonical := by
    intro other listed
    obtain rfl : other = .empty 2 := by simpa [history, asks] using listed
    exact Bitfield.canonical_empty 2
  obtain ⟨-, -, -, -, released, -⟩ :=
    assigned_soundly 16384 (.empty 2) history (Bitfield.canonical_empty 2) given
  exact ⟨done, released [.assigned request 0] 0 [.took marker, .assigned request 0] [] done,
    by decide, by decide⟩

end Assignment

end PeerWire

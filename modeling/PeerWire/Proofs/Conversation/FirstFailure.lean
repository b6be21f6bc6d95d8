import PeerWire.Proofs.Bitfield
import PeerWire.Proofs.Conversation.Plan

/-!
Which handlings fail, and where. Of the steps of a handling the first that cannot be done makes it
fail: the message is invalid, what it has to hand over is not taken, an interest that has changed
cannot be announced, or a request that is allowed cannot be made. `FailsAt` lists these failures
with the steps that were tried, in terms of the message, of what we hold and of the channels alone.
-/

namespace PeerWire

/-! ### Invalid messages -/

/-- Why a message is invalid in a swarm of so many pieces. -/
inductive Message.Invalid (pieces : UInt64) : Message → PeerFault → Prop where
  | unknown (id : UInt8) (payload : List UInt8) :
      Invalid pieces (.unknown id payload) (.unknownMessage id)
  | outOfRange {index : UInt32} (beyond : pieces.toNat ≤ index.toNat) :
      Invalid pieces (.havePiece index) (.pieceOutOfRange index.toNat pieces.toNat)
  | wrongLength {bits : List UInt8} (differs : bits.length ≠ (pieces.toNat + 7) / 8) :
      Invalid pieces (.bitfield bits)
        (.bitfieldLength ((pieces.toNat + 7) / 8) bits.length pieces.toNat)
  | spareBit {bits : List UInt8} {index : Nat} (fits : bits.length = (pieces.toNat + 7) / 8)
      (spare : pieces.toNat ≤ index) (held : packedBit bits index = true) :
      Invalid pieces (.bitfield bits) (.spareBits pieces.toNat)

/-- Why bytes are no bitfield. -/
theorem Bitfield.ofBytes?_eq_error_iff {pieces : UInt64} {bits : List UInt8} {fault : PeerFault} :
    ofBytes? pieces bits = .error fault ↔ (Message.bitfield bits).Invalid pieces fault := by
  have count := toNat_byteCount pieces
  unfold ofBytes?
  dsimp only
  split
  · rename_i differs
    rw [count] at differs ⊢
    constructor
    · intro same
      cases same
      exact .wrongLength differs
    · intro invalid
      cases invalid with
      | wrongLength => rfl
      | spareBit fits => exact absurd fits differs
  · rename_i fits
    have fits := not_not.mp fits
    have clear := spare_clear_iff fits
    rw [count] at fits
    split
    · rename_i marked
      have held : ∃ index, pieces.toNat ≤ index ∧ packedBit bits index = true := by
        simpa using mt clear.mpr (not_not.mpr marked)
      constructor
      · intro same
        cases same
        obtain ⟨index, spare, held⟩ := held
        exact .spareBit fits spare held
      · intro invalid
        cases invalid with
        | wrongLength differs => exact absurd fits differs
        | spareBit => rfl
    · rename_i unmarked
      constructor
      · intro same
        cases same
      · intro invalid
        cases invalid with
        | wrongLength differs => exact absurd fits differs
        | spareBit _ spare held =>
            rw [clear.mp unmarked _ spare] at held
            contradiction

theorem Message.rejection?_eq_some_iff {pieces : UInt64} {message : Message} {fault : PeerFault} :
    message.rejection? pieces = some fault ↔ message.Invalid pieces fault := by
  cases message with
  | havePiece index =>
      unfold rejection?
      dsimp only
      rw [Option.ite_none_right_eq_some, Option.some.injEq]
      constructor
      · rintro ⟨beyond, rfl⟩
        exact .outOfRange beyond
      · intro invalid
        cases invalid with
        | outOfRange beyond => exact ⟨beyond, rfl⟩
  | bitfield bits =>
      rw [← Bitfield.ofBytes?_eq_error_iff]
      unfold rejection?
      dsimp only
      cases Bitfield.ofBytes? pieces bits <;> simp
  | unknown id payload =>
      constructor
      · intro same
        cases same
        exact .unknown id payload
      · intro invalid
        cases invalid with
        | unknown => rfl
  | _ =>
      constructor
      · intro same
        cases same
      · intro invalid
        cases invalid

theorem Message.rejection?_eq_none_iff {pieces : UInt64} {message : Message} :
    message.rejection? pieces = none ↔ ∀ fault, ¬ message.Invalid pieces fault := by
  simp only [← rejection?_eq_some_iff, Option.eq_none_iff_forall_ne_some]

namespace Conversation

section Handlings

variable {c c' : Conversation} {message : Message} {held atReview : Bitfield}
  {offers : List Offer}

/-! ### The first step that fails -/

/-- The handling comes to review our interest: the message is one that prompts it, is valid, and
has handed its block over. -/
structure ComesToReview (c : Conversation) (message : Message) (channels : Channels) : Prop where
  prompts : message.prompts = true
  valid : ∀ fault, ¬ message.Invalid c.pieces fault
  delivered : ∀ block, message = .piece block → channels.deliveries = .accepted

/-- The handling of a message fails, having tried these steps, for this fault. -/
inductive FailsAt (c : Conversation) (message : Message) (channels : Channels)
    (atReview atRequest : Bitfield) : List Errand → PeerFault → Prop where
  | invalid {fault : PeerFault} (invalid : message.Invalid c.pieces fault) :
      FailsAt c message channels atReview atRequest [] fault
  | cancel {ref : BlockRef} (cancels : message = .cancel ref)
      (closed : channels.cancels = .closed) :
      FailsAt c message channels atReview atRequest [.cancel ref]
        (.channelClosed "write queue cancel")
  | delivery {block : Block} (delivers : message = .piece block)
      (closed : channels.deliveries = .closed) :
      FailsAt c message channels atReview atRequest [.deliver block]
        (.channelClosed "scheduler deliveries")
  | stalled {block : Block} (delivers : message = .piece block)
      (expired : channels.deliveries = .expired) :
      FailsAt c message channels atReview atRequest [.deliver block] .schedulerStalled
  | interest (comes : c.ComesToReview message channels)
      (flips : (c.noted message atReview).standing.amInterested ≠ c.standing.amInterested)
      (closed : channels.outbound = .closed) :
      FailsAt c message channels atReview atRequest
        (message.hands ++ [.announce (c.noted message atReview).standing.amInterested true])
        (.channelClosed "write queue")
  | request (comes : c.ComesToReview message channels)
      (announced : (c.noted message atReview).standing.amInterested ≠ c.standing.amInterested →
        channels.outbound ≠ .closed)
      (may : (c.noted message atReview).mayRequest atRequest = true)
      (closed : channels.requests = .closed) :
      FailsAt c message channels atReview atRequest
        (message.hands ++ c.announcement (c.noted message atReview) ++
          [.request (c.noted message atReview).standing.remote])
        (.channelClosed "scheduler requests")

/-- The steps of a handling and its fault, as the channels are. -/
def course (c : Conversation) (message : Message) (channels : Channels)
    (atReview atRequest : Bitfield) : List Errand × Option PeerFault :=
  match message.rejection? c.pieces with
  | some fault => ([], some fault)
  | none => channels.work (c.plan message atReview atRequest)

theorem ComesToReview.smooth {channels : Channels} (comes : c.ComesToReview message channels) :
    ∀ errand ∈ message.hands, errand.fault? (channels.result errand) = none := by
  have prompts := comes.prompts
  cases message with
  | piece block =>
      refine List.forall_mem_singleton.mpr ?_
      rw [Channels.result, comes.delivered block rfl]
      rfl
  | cancel ref => contradiction
  | _ => exact List.forall_mem_nil _

theorem ComesToReview.course_eq {channels : Channels} (comes : c.ComesToReview message channels)
    (atReview atRequest : Bitfield) :
    let rest := channels.work (c.announcement (c.noted message atReview) ++
      (c.noted message atReview).inquiry atRequest)
    c.course message channels atReview atRequest = (message.hands ++ rest.1, rest.2) := by
  intro rest
  rw [course, Message.rejection?_eq_none_iff.mpr comes.valid]
  dsimp only
  rw [plan, if_pos comes.prompts]
  exact work_append comes.smooth _

theorem smooth_announcement {channels : Channels}
    (announced : c'.standing.amInterested ≠ c.standing.amInterested →
      channels.outbound ≠ .closed) :
    ∀ errand ∈ c.announcement c', errand.fault? (channels.result errand) = none := by
  unfold announcement
  split
  · exact List.forall_mem_nil _
  · rename_i flips
    refine List.forall_mem_singleton.mpr ?_
    have present := announced flips
    rw [Channels.result]
    cases outbound : channels.outbound with
    | closed => exact absurd outbound present
    | _ => rfl

theorem smooth_inquiry {channels : Channels} {atRequest : Bitfield}
    (taken : c.mayRequest atRequest = true → channels.requests ≠ .closed) :
    ∀ errand ∈ c.inquiry atRequest, errand.fault? (channels.result errand) = none := by
  unfold inquiry
  split
  · rename_i may
    have present := taken may
    refine List.forall_mem_singleton.mpr ?_
    rw [Channels.result]
    cases requests : channels.requests with
    | closed => exact absurd requests present
    | _ => rfl
  · exact List.forall_mem_nil _

section Course

variable {channels : Channels} {atRequest : Bitfield} {steps : List Errand} {fault : PeerFault}

theorem FailsAt.course_eq (fails : c.FailsAt message channels atReview atRequest steps fault) :
    c.course message channels atReview atRequest = (steps, some fault) := by
  cases fails with
  | invalid invalid => rw [course, Message.rejection?_eq_some_iff.mpr invalid]
  | cancel cancels closed =>
      subst cancels
      exact work_cons_of_fault (by rw [Channels.result, closed]; rfl) _
  | delivery delivers closed =>
      subst delivers
      exact work_cons_of_fault (by rw [Channels.result, closed]; rfl) _
  | stalled delivers expired =>
      subst delivers
      exact work_cons_of_fault (by rw [Channels.result, expired]; rfl) _
  | interest comes flips closed =>
      rw [comes.course_eq, announcement, if_neg flips, List.singleton_append,
        work_cons_of_fault (by rw [Channels.result, closed]; rfl)]
  | request comes announced may closed =>
      rw [comes.course_eq, work_append (smooth_announcement announced), inquiry, if_pos may,
        work_cons_of_fault (by rw [Channels.result, closed]; rfl), List.append_assoc]

/-- A course with a fault fails somewhere. -/
theorem exists_failsAt (fails : (c.course message channels atReview atRequest).2 ≠ none) :
    ∃ steps fault, c.FailsAt message channels atReview atRequest steps fault := by
  cases verdict : message.rejection? c.pieces with
  | some fault => exact ⟨[], fault, .invalid (Message.rejection?_eq_some_iff.mp verdict)⟩
  | none =>
      have valid := Message.rejection?_eq_none_iff.mp verdict
      by_cases prompts : message.prompts = true
      · by_cases delivered : ∀ block, message = .piece block → channels.deliveries = .accepted
        · have comes : c.ComesToReview message channels := ⟨prompts, valid, delivered⟩
          by_cases silent : (c.noted message atReview).standing.amInterested ≠
              c.standing.amInterested ∧ channels.outbound = .closed
          · exact ⟨_, _, .interest comes silent.1 silent.2⟩
          have announced := not_and.mp silent
          by_cases unasked : (c.noted message atReview).mayRequest atRequest = true ∧
              channels.requests = .closed
          · exact ⟨_, _, .request comes announced unasked.1 unasked.2⟩
          refine absurd ?_ fails
          rw [comes.course_eq, work_append (smooth_announcement announced),
            work_of_smooth (smooth_inquiry (not_and.mp unasked))]
        · push Not at delivered
          obtain ⟨block, rfl, refused⟩ := delivered
          cases deliveries : channels.deliveries with
          | accepted => exact absurd deliveries refused
          | closed => exact ⟨_, _, .delivery rfl deliveries⟩
          | expired => exact ⟨_, _, .stalled rfl deliveries⟩
      · rw [course, verdict, plan, if_neg prompts, List.append_nil] at fails
        cases message with
        | cancel ref =>
            cases cancels : channels.cancels with
            | closed => exact ⟨_, _, .cancel rfl cancels⟩
            | _ =>
                refine absurd ?_ fails
                rw [work_of_smooth]
                refine List.forall_mem_singleton.mpr ?_
                rw [Channels.result, cancels]
                rfl
        | unchoke | havePiece | bitfield | piece => exact absurd rfl prompts
        | _ => exact absurd rfl fails

/-- Where a handling fails, and for what, is what its course says. -/
theorem failsAt_iff : c.FailsAt message channels atReview atRequest steps fault ↔
    c.course message channels atReview atRequest = (steps, some fault) := by
  refine ⟨FailsAt.course_eq, ?_⟩
  intro course
  obtain ⟨steps', fault', fails⟩ := exists_failsAt (by rw [course]; exact Option.some_ne_none _)
  rw [fails.course_eq] at course
  cases course
  exact fails

theorem plan_of_course (course : c.course message channels atReview atRequest = (steps, none)) :
    steps = c.plan message atReview atRequest := by
  unfold Conversation.course at course
  split at course
  · cases course
  · have all := work_eq_of_none (congrArg Prod.snd course)
    rw [course] at all
    exact all

end Course

/-- Whatever the message, its handling takes its course. -/
theorem Answers.course_eq {channels : Channels} {outcome : Except Failure Unit} (sized : c.Sized)
    (answers : c.Answers (.handle message) held offers (c', .done outcome))
    (meets : channels.Meets offers) :
    ∃ fault?, outcome = outcomeOf fault? ∧
      c.course message channels (heldAtReview held offers) (heldAtRequest held offers) =
        (attempted offers, fault?) := by
  unfold course
  cases verdict : message.rejection? c.pieces with
  | none => exact answers.verdict sized verdict meets
  | some fault =>
      cases answers.underway.of_rejected sized verdict
      rcases List.eq_nil_or_concat offers with rfl | ⟨earlier, offer, rfl⟩
      · exact ⟨some fault, rfl, rfl⟩
      · rw [List.concat_eq_append] at answers
        obtain ⟨before, waiting, -⟩ := answers.last
        cases waiting.underway.of_rejected sized verdict

end Handlings

/-- A handling fails exactly when it must.

After any calls, a message is handled while our own bitfield may change from one hand-over to the
next, and the handling returns. It fails if and only if the message is invalid, or a cancellation
finds its channel closed, or a block finds the scheduler's closed or without room for too long, or
our interest flips while the write queue is closed, or a piece request is then allowed while the
scheduler is gone. The failure is that of the first of these steps, and the steps that were tried
are those up to it. A handling that succeeds has tried all that was to be done. -/
theorem fails_exactly_when_it_must (addr : String) (pieces : UInt64) (channel : Nat)
    (c : Conversation) (reached : (start addr pieces channel).Reached c) (message : Message)
    (held : Bitfield) (offers : List Offer) (c' : Conversation) (outcome : Except Failure Unit)
    (answers : c.Answers (.handle message) held offers (c', .done outcome))
    (channels : Channels) (meets : channels.Meets offers) :
    let Fails := c.FailsAt message channels (heldAtReview held offers) (heldAtRequest held offers)
    (∀ failure, outcome = .error failure ↔
      ∃ steps fault, Fails steps fault ∧ failure = .peer fault) ∧
    (∀ steps fault, Fails steps fault → attempted offers = steps) ∧
    (outcome = .ok () → attempted offers =
      c.plan message (heldAtReview held offers) (heldAtRequest held offers)) := by
  intro Fails
  have sized := (reached.fit (fit_start addr pieces channel)).sized
  obtain ⟨fault?, rfl, course⟩ := answers.course_eq sized meets
  refine ⟨?_, ?_, ?_⟩
  · intro failure
    constructor
    · intro failed
      cases fault? with
      | none => cases failed
      | some fault =>
          cases failed
          exact ⟨_, fault, failsAt_iff.mpr course, rfl⟩
    · rintro ⟨steps, fault, fails, rfl⟩
      rw [fails.course_eq] at course
      cases course
      rfl
  · intro steps fault fails
    rw [fails.course_eq] at course
    exact (congrArg Prod.fst course).symm
  · intro succeeded
    cases fault? with
    | some fault => cases succeeded
    | none => exact plan_of_course course

/-- All channels are closed, and a first piece is announced to us: the announcement of our interest
fails, and the scheduler is not asked. -/
theorem fails_exactly_when_it_must_announcing :
    let c := start "10.0.0.7:6881" 4 0
    let nothing : Bitfield := .empty 4
    let gone : Channels := ⟨.closed, .closed, .closed, .closed⟩
    let offers : List Offer := [⟨.announce true true, .closed, nothing⟩]
    ∃ c', c.Answers (.handle (.havePiece 0)) nothing offers
        (c', .done (.error (.peer (.channelClosed "write queue")))) ∧
      gone.Meets offers ∧
      c.FailsAt (.havePiece 0) gone nothing nothing [.announce true true]
        (.channelClosed "write queue") := by
  intro c nothing gone offers
  let c' : Conversation :=
    { c with standing := { c.standing with remote := ⟨4, [128]⟩, amInterested := true } }
  have announcing : c.Answers (.handle (.havePiece 0)) nothing []
      (c', .handing (.announce true true)) := .start 0
  have failed : c.Answers (.handle (.havePiece 0)) nothing offers
      (c', .done (.error (.peer (.channelClosed "write queue")))) :=
    announcing.goOn .closed nothing
  have meets : gone.Meets offers := List.forall_mem_singleton.mpr fun _ => rfl
  obtain ⟨failing, first, -⟩ := fails_exactly_when_it_must _ _ _ c .start _ nothing offers c' _
    failed gone meets
  obtain ⟨steps, fault, fails, same⟩ := (failing _).mp rfl
  obtain rfl : [.announce true true] = steps := first steps fault fails
  cases same
  exact ⟨c', failed, meets, fails⟩

end Conversation

end PeerWire

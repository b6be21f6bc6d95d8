import PeerWire.Proofs.Conversation.Failures

/-!
What the handling of a valid message tries, and in which order. It has a plan: what the message has
to hand over, then the announcement of an interest that has changed, then a piece request if one is
allowed. The handling works the plan off and stops at the first step whose channel does not take
what is offered.

The plan depends on what we hold when the interest is recomputed and when the request is considered,
which may be two different things. A `Channels` says how each of the four channels ends a hand-over.
No channel is used twice in one handling, so this is all that a handling can meet; a hand-over
without a time limit that has found no room is still waiting.
-/

namespace PeerWire

/-! ### Channels -/

/-- How each of the channels of a connection ends a hand-over. -/
structure Channels where
  cancels : HandOver
  deliveries : HandOver
  outbound : HandOver
  requests : HandOver
deriving DecidableEq, Repr

/-- How an errand ends. -/
def Channels.result (channels : Channels) : Errand → HandOver
  | .cancel _ => channels.cancels
  | .deliver _ => channels.deliveries
  | .announce _ _ => channels.outbound
  | .request _ => channels.requests

/-- Why a handling fails when an errand ends like this. -/
def Errand.fault? : Errand → HandOver → Option PeerFault
  | .cancel _, .closed => some (.channelClosed "write queue cancel")
  | .deliver _, .closed => some (.channelClosed "scheduler deliveries")
  | .deliver _, .expired => some .schedulerStalled
  | .announce _ _, .closed => some (.channelClosed "write queue")
  | .request _, .closed => some (.channelClosed "scheduler requests")
  | _, _ => none

/-- A hand-over without a time limit that has found no room goes on. -/
def Offer.isOver (offer : Offer) : Bool :=
  offer.errand.isTimed || offer.result ≠ .expired

/-- The hand-overs that have ended have ended as their channels end them. -/
def Channels.Meets (channels : Channels) (offers : List Offer) : Prop :=
  ∀ offer ∈ offers, offer.isOver = true → offer.result = channels.result offer.errand

/-- The errands that were tried, each of them once. -/
def attempted (offers : List Offer) : List Errand :=
  (offers.filter Offer.isOver).map Offer.errand

/-- The errands that are tried, and the first fault. -/
def Channels.work (channels : Channels) : List Errand → List Errand × Option PeerFault
  | [] => ([], none)
  | errand :: later =>
      match errand.fault? (channels.result errand) with
      | some fault => ([errand], some fault)
      | none => (errand :: (channels.work later).1, (channels.work later).2)

/-- How a handling ends with this fault, or without any. -/
def outcomeOf : Option PeerFault → Except Failure Unit
  | some fault => .error (.peer fault)
  | none => .ok ()

section Work

variable {channels : Channels} {errands later : List Errand} {errand : Errand} {fault : PeerFault}

theorem work_append (smooth : ∀ errand ∈ errands, errand.fault? (channels.result errand) = none)
    (later : List Errand) : channels.work (errands ++ later) =
      (errands ++ (channels.work later).1, (channels.work later).2) := by
  induction errands with
  | nil => rfl
  | cons errand rest ih =>
      obtain ⟨first, smooth⟩ := List.forall_mem_cons.mp smooth
      rw [List.cons_append, Channels.work, first]
      simp only [ih smooth]
      rfl

theorem work_of_smooth
    (smooth : ∀ errand ∈ errands, errand.fault? (channels.result errand) = none) :
    channels.work errands = (errands, none) := by
  have whole := work_append smooth []
  rwa [List.append_nil, Channels.work, List.append_nil] at whole

theorem work_cons_of_fault (fails : errand.fault? (channels.result errand) = some fault)
    (later : List Errand) : channels.work (errand :: later) = ([errand], some fault) := by
  rw [Channels.work, fails]

/-- Without a fault everything is tried. -/
theorem work_eq_of_none (smooth : (channels.work errands).2 = none) :
    (channels.work errands).1 = errands := by
  induction errands with
  | nil => rfl
  | cons errand rest ih =>
      cases first : errand.fault? (channels.result errand) with
      | some fault =>
          rw [work_cons_of_fault first] at smooth
          cases smooth
      | none =>
          rw [Channels.work, first] at smooth ⊢
          exact congrArg _ (ih smooth)

end Work

/-! ### The plan -/

/-- What a message has to hand over. -/
def Message.hands : Message → List Errand
  | .piece block => [.deliver block]
  | .cancel ref => [.cancel ref]
  | _ => []

namespace Conversation

/-- The conversation once the message is noted and our interest recomputed. -/
def noted (c : Conversation) (message : Message) (atReview : Bitfield) : Conversation :=
  { c with standing := c.standing.noted message atReview }

/-- The announcement of an interest that has changed. -/
def announcement (c c' : Conversation) : List Errand :=
  if c'.standing.amInterested = c.standing.amInterested then []
  else [.announce c'.standing.amInterested true]

/-- The piece request, if it is allowed. -/
def inquiry (c : Conversation) (atRequest : Bitfield) : List Errand :=
  if c.mayRequest atRequest then [.request c.standing.remote] else []

/-- What the handling of a valid message tries, one after the other. -/
def plan (c : Conversation) (message : Message) (atReview atRequest : Bitfield) : List Errand :=
  message.hands ++
    if message.prompts then
      c.announcement (c.noted message atReview) ++ (c.noted message atReview).inquiry atRequest
    else []

/-- What was tried before, where nothing has failed and no request was offered. -/
def tried (c : Conversation) (message : Message) : Conversation × Progress → List Errand
  | (_, .handing (.cancel _)) | (_, .handing (.deliver _)) => []
  | (_, .handing (.announce _ _)) => message.hands
  | (c', .handing (.request _)) | (c', .done _) => message.hands ++ c.announcement c'

section Handlings

variable {c c' : Conversation} {message : Message} {held atReview : Bitfield}
  {offers : List Offer} {stand : Conversation × Progress}

theorem announcement_of_same (same : c'.standing.amInterested = c.standing.amInterested) :
    c.announcement c' = [] := if_pos same

theorem resume_of_fault (c : Conversation) {held : Bitfield} {errand : Errand} {result : HandOver}
    {fault : PeerFault} (fails : errand.fault? result = some fault) :
    c.resume held errand result = (c, .fail fault) := by
  cases errand <;> cases result <;> cases fails <;> rfl

theorem attempted_concat {offer : Offer} (settled : offer.isOver = true) :
    attempted (offers ++ [offer]) = attempted offers ++ [offer.errand] := by
  simp [attempted, settled]

theorem attempted_concat_waiting {offer : Offer} (waiting : offer.isOver = false) :
    attempted (offers ++ [offer]) = attempted offers := by
  simp [attempted, waiting]

theorem tried_afterInterest (c c' : Conversation) (message : Message) (held : Bitfield)
    (thenRequest : Bool) : c.tried message (c', c'.afterInterest held thenRequest) =
      message.hands ++ c.announcement c' := by
  unfold afterInterest
  split
  · rw [considerRequest_eq]
    split
    · rfl
    · rfl
  · rfl

/-- A review of our interest comes after what had to be handed over. -/
theorem tried_reviewInterest (message : Message) (held : Bitfield)
    (same : c'.standing.amInterested = c.standing.amInterested) :
    c.tried message (c'.reviewInterest held true) = message.hands := by
  unfold reviewInterest
  dsimp only
  split
  · rw [tried_afterInterest, announcement_of_same same, List.append_nil]
  · rfl

/-- Before the first step nothing was tried. -/
theorem tried_receive (c : Conversation) (message : Message) (held : Bitfield) (now : Nat) :
    c.tried message (c.receive held now message) = [] := by
  have reviewing : message.hands = [] → ∀ standing : Standing,
      standing.amInterested = c.standing.amInterested →
      c.tried message (({ c with standing } : Conversation).reviewInterest held true) = [] := by
    intro none standing same
    exact (tried_reviewInterest message held same).trans none
  cases message with
  | havePiece index =>
      unfold receive
      dsimp only
      split
      · exact announcement_of_same rfl
      · exact reviewing rfl _ rfl
  | bitfield bits =>
      unfold receive
      dsimp only
      split
      · exact announcement_of_same rfl
      · exact reviewing rfl _ rfl
  | unchoke => exact reviewing rfl _ rfl
  | piece block => rfl
  | cancel ref => rfl
  | _ => exact announcement_of_same rfl

/-- While nothing has failed and no request is made, what was tried can be told from where the
handling stands. -/
theorem Answers.attempted_eq (sized : c.Sized)
    (answers : c.Answers (.handle message) held offers stand)
    (smooth : ∀ offer ∈ offers, offer.errand.fault? offer.result = none)
    (unasked : ∀ offer ∈ offers, offer.asks = false) :
    attempted offers = c.tried message stand := by
  induction answers with
  | start now => exact (c.tried_receive message held now).symm
  | @goOn offers c' errand result held' before ih =>
      obtain ⟨smooth, last⟩ := List.forall_mem_append.mp smooth
      obtain ⟨unasked, other⟩ := List.forall_mem_append.mp unasked
      have last : errand.fault? result = none := last _ (List.mem_singleton_self _)
      have tried := ih smooth unasked
      cases before.stands sized with
      | delivering handles =>
          cases handles
          cases result with
          | accepted =>
              rw [attempted_concat rfl, tried]
              exact (tried_reviewInterest (.piece _) held' rfl).symm
          | _ => contradiction
      | @retracting _ _ ref reviewed announced passes =>
          obtain ⟨same, ref', rfl, retracts⟩ := (before.of_unprompting passes).2 _ rfl
          cases retracts
          obtain rfl : c' = c := same
          cases result with
          | accepted =>
              rw [attempted_concat rfl, tried]
              exact (congrArg (Errand.cancel ref :: ·) (announcement_of_same rfl)).symm
          | closed => contradiction
          | expired => rwa [attempted_concat_waiting rfl]
      | announcing reviewed reviews changed silent =>
          cases result with
          | accepted =>
              have prompts : (Call.handle message).considers = true := reviews
              have next := tried_afterInterest c c' message held' true
              rw [announcement, if_neg changed] at next
              rw [attempted_concat rfl, tried, prompts]
              exact next.symm
          | closed => contradiction
          | expired => rwa [attempted_concat_waiting rfl]
      | asking =>
          have asks := other _ (List.mem_singleton_self _)
          contradiction

/-- Whoever is still handing something over has met no fault and made no request. -/
theorem Answers.smooth {call : Call} (answers : c.Answers call held offers stand)
    (handing : ∃ errand, stand.2 = .handing errand) :
    (∀ offer ∈ offers, offer.errand.fault? offer.result = none) ∧
      ∀ offer ∈ offers, offer.asks = false := by
  induction answers with
  | start now => exact ⟨by simp, by simp⟩
  | @goOn offers c' errand result held' before ih =>
      obtain ⟨next, handing⟩ := handing
      obtain ⟨smooth, unasked⟩ := ih ⟨errand, rfl⟩
      constructor
      · refine List.forall_mem_append.mpr ⟨smooth, List.forall_mem_singleton.mpr ?_⟩
        cases fails : errand.fault? result with
        | none => rfl
        | some fault =>
            rw [resume_of_fault c' fails] at handing
            cases handing
      · refine List.forall_mem_append.mpr ⟨unasked, List.forall_mem_singleton.mpr ?_⟩
        cases errand with
        | request remote =>
            rw [resume_request] at handing
            cases handing
        | _ => rfl

/-- What is being handed over is the next step of the plan. A request is the last. -/
theorem Answers.plan_eq {errand : Errand} (sized : c.Sized)
    (answers : c.Answers (.handle message) held offers (c', .handing errand))
    (result : HandOver) (held' : Bitfield) :
    let offer : Offer := ⟨errand, result, held'⟩
    ∃ later, c.plan message (heldAtReview held (offers ++ [offer]))
        (heldAtRequest held (offers ++ [offer])) =
      c.tried message (c', .handing errand) ++ errand :: later ∧
        (offer.asks = true → later = []) := by
  intro offer
  cases answers.stands sized with
  | delivering handles =>
      cases handles
      exact ⟨_, rfl, nofun⟩
  | @retracting _ _ ref reviewed announced passes =>
      obtain ⟨-, ref', rfl, retracts⟩ := (answers.of_unprompting passes).2 _ rfl
      cases retracts
      exact ⟨[], rfl, nofun⟩
  | announcing reviewed reviews changed silent =>
      have prompts : message.prompts = true := reviews
      have same := answers.noted sized prompts (reviewed.interest.trans (if_pos reviews))
      rw [heldAtReview_concat rfl, plan, if_pos prompts, Conversation.noted, ← same, announcement,
        if_neg changed]
      rw [show (Call.handle message).considers = true from prompts]
      exact ⟨_, rfl, nofun⟩
  | asking reviewed announced considers may =>
      have prompts : message.prompts = true := considers
      have same := answers.noted sized prompts (reviewed.interest.trans (if_pos considers))
      rw [heldAtReview_concat rfl, heldAtRequest_concat rfl,
        heldAtRequest_of_unasked reviewed.unasked, plan, if_pos prompts, Conversation.noted,
        ← same, inquiry, if_pos may]
      exact ⟨[], (List.append_assoc ..).symm, fun _ => rfl⟩

theorem fault?_of_failsEarly {offer : Offer} (early : offer.failsEarly = true) :
    offer.errand.fault? offer.result ≠ none := by
  obtain ⟨errand, result, held⟩ := offer
  cases errand <;> cases result <;> first | contradiction | exact Option.some_ne_none _

/-- A handling that meets no fault and makes no request works its plan off. -/
theorem Answers.of_smooth {outcome : Except Failure Unit} (sized : c.Sized)
    (valid : message.rejection? c.pieces = none)
    (answers : c.Answers (.handle message) held offers (c', .done outcome))
    (smooth : ∀ offer ∈ offers, offer.errand.fault? offer.result = none)
    (unasked : ∀ offer ∈ offers, offer.asks = false) :
    c.plan message (heldAtReview held offers) (heldAtRequest held offers) = attempted offers ∧
      outcome = .ok () := by
  have tried := answers.attempted_eq sized smooth unasked
  generalize ended : (c', Progress.done outcome) = stand at answers
  cases answers.stands sized with
  | rejected handles rejected =>
      cases handles
      rw [valid] at rejected
      contradiction
  | asked =>
      have asks := (List.forall_mem_append.mp unasked).2 _ (List.mem_singleton_self _)
      contradiction
  | settled reviewed announced mayNot =>
      cases ended
      refine ⟨?_, rfl⟩
      rw [tried, plan]
      by_cases prompts : message.prompts = true
      · have same := answers.noted sized prompts (reviewed.interest.trans (if_pos prompts))
        rw [if_pos prompts, Conversation.noted, ← same, heldAtRequest_of_unasked unasked, inquiry,
          mayNot prompts, if_neg (by decide), List.append_nil]
        rfl
      · have same := reviewed.interest.trans (if_neg prompts)
        rw [if_neg prompts]
        exact congrArg _ (announcement_of_same same).symm
  | failed _ early =>
      obtain ⟨offer, listed, early⟩ := early
      exact absurd (smooth offer listed) (fault?_of_failsEarly early)
  | _ => cases ended

theorem isOver_of_fault {offer : Offer} {fault : PeerFault}
    (fails : offer.errand.fault? offer.result = some fault) : offer.isOver = true := by
  obtain ⟨errand, result, held⟩ := offer
  cases errand <;> cases result <;> first | rfl | cases fails

/-- Nothing that was tried without a fault has one on its channel. -/
theorem smooth_attempted {channels : Channels} (meets : channels.Meets offers)
    (smooth : ∀ offer ∈ offers, offer.errand.fault? offer.result = none) :
    ∀ errand ∈ attempted offers, errand.fault? (channels.result errand) = none := by
  intro errand listed
  obtain ⟨offer, among, rfl⟩ := List.mem_map.mp listed
  obtain ⟨listed, settled⟩ := List.mem_filter.mp among
  rw [← meets offer listed settled]
  exact smooth offer listed

/-- The handling of a valid message works its plan off, up to the first fault. -/
theorem Answers.verdict {channels : Channels} {outcome : Except Failure Unit} (sized : c.Sized)
    (valid : message.rejection? c.pieces = none)
    (answers : c.Answers (.handle message) held offers (c', .done outcome))
    (meets : channels.Meets offers) :
    ∃ fault?, outcome = outcomeOf fault? ∧
      channels.work (c.plan message (heldAtReview held offers) (heldAtRequest held offers)) =
        (attempted offers, fault?) := by
  -- Without a fault all of the plan was tried.
  have untroubled : (∀ offer ∈ offers, offer.errand.fault? offer.result = none) →
      c.plan message (heldAtReview held offers) (heldAtRequest held offers) = attempted offers →
      channels.work (c.plan message (heldAtReview held offers) (heldAtRequest held offers)) =
        (attempted offers, none) := by
    intro smooth all
    rw [all]
    exact work_of_smooth (smooth_attempted meets smooth)
  rcases List.eq_nil_or_concat offers with rfl | ⟨earlier, offer, rfl⟩
  · obtain ⟨all, rfl⟩ := answers.of_smooth sized valid (by simp) (by simp)
    exact ⟨none, rfl, untroubled (by simp) all⟩
  rw [List.concat_eq_append] at *
  obtain ⟨before, waiting, ended⟩ := answers.last
  obtain ⟨smooth, unasked⟩ := waiting.smooth ⟨_, rfl⟩
  obtain ⟨later, next, final⟩ := waiting.plan_eq sized offer.result offer.held
  rw [← waiting.attempted_eq sized smooth unasked] at next
  obtain ⟨met, last⟩ := List.forall_mem_append.mp meets
  cases fails : offer.errand.fault? offer.result with
  | some fault =>
      rw [resume_of_fault before fails] at ended
      cases ended
      have settled := isOver_of_fault fails
      rw [last offer (List.mem_singleton_self _) settled] at fails
      refine ⟨some fault, rfl, ?_⟩
      rw [next, work_append (smooth_attempted met smooth), work_cons_of_fault fails,
        attempted_concat settled]
  | none =>
      have smooth : ∀ one ∈ earlier ++ [offer], one.errand.fault? one.result = none :=
        List.forall_mem_append.mpr ⟨smooth, List.forall_mem_singleton.mpr fails⟩
      obtain ⟨errand, result, held'⟩ := offer
      cases errand with
      | request remote =>
          rw [resume_request] at ended
          cases ended
          have succeeded : result.afterRequest = .ok () := by
            cases result with
            | closed => cases fails
            | _ => rfl
          rw [final rfl] at next
          exact ⟨none, succeeded, untroubled smooth (next.trans (attempted_concat rfl).symm)⟩
      | _ =>
          obtain ⟨all, rfl⟩ := answers.of_smooth sized valid smooth
            (List.forall_mem_append.mpr ⟨unasked, List.forall_mem_singleton.mpr rfl⟩)
          exact ⟨none, rfl, untroubled smooth all⟩

end Handlings

/-! ### Every condition of the channels comes about -/

/-- The most hand-overs that can follow one. -/
def followers : Errand → Nat
  | .deliver _ => 2
  | .announce _ _ => 1
  | .cancel _ | .request _ => 0

section Returns

variable {c c' : Conversation} {message : Message} {held : Bitfield} {offers : List Offer}
  {errand next : Errand} {channels : Channels}

theorem followers_afterInterest {thenRequest : Bool}
    (goesOn : c.afterInterest held thenRequest = .handing next) : followers next = 0 := by
  unfold afterInterest at goesOn
  split at goesOn
  · rw [considerRequest_eq] at goesOn
    split at goesOn
    · cases goesOn
      rfl
    · cases goesOn
  · cases goesOn

theorem followers_reviewInterest {thenRequest : Bool}
    (goesOn : (c.reviewInterest held thenRequest).2 = .handing next) : followers next ≤ 1 := by
  unfold reviewInterest at goesOn
  dsimp only at goesOn
  split at goesOn
  · rw [followers_afterInterest goesOn]
    exact Nat.zero_le 1
  · cases goesOn
    exact Nat.le_refl 1

/-- A hand-over that has ended is followed by fewer than it was. -/
theorem followers_resume {result : HandOver}
    (settled : (⟨errand, result, held⟩ : Offer).isOver = true)
    (goesOn : (c.resume held errand result).2 = .handing next) :
    followers next < followers errand := by
  cases errand with
  | cancel ref => cases result <;> contradiction
  | deliver block =>
      cases result with
      | accepted => exact Nat.lt_succ_of_le (followers_reviewInterest goesOn)
      | _ => cases goesOn
  | announce interested thenRequest =>
      cases result with
      | accepted =>
          rw [followers_afterInterest goesOn]
          exact Nat.zero_lt_one
      | closed => cases goesOn
      | expired => contradiction
  | request remote =>
      rw [resume_request] at goesOn
      cases goesOn

/-- A handling returns as soon as no channel without a time limit keeps it waiting. -/
theorem Answers.returns (cancels : channels.cancels ≠ .expired)
    (outbound : channels.outbound ≠ .expired)
    (answers : c.Answers (.handle message) held offers (c', .handing errand))
    (meets : channels.Meets offers) :
    ∃ offers' c'' outcome, c.Answers (.handle message) held offers' (c'', .done outcome) ∧
      channels.Meets offers' := by
  induction count : followers errand using Nat.strongRecOn generalizing offers c' errand with
  | ind count ih =>
      have settled : (⟨errand, channels.result errand, held⟩ : Offer).isOver = true := by
        cases errand <;> simp [Offer.isOver, Errand.isTimed, Channels.result, cancels, outbound]
      have further := answers.goOn (channels.result errand) held
      have meets' : channels.Meets (offers ++ [⟨errand, channels.result errand, held⟩]) :=
        List.forall_mem_append.mpr ⟨meets, List.forall_mem_singleton.mpr fun _ => rfl⟩
      generalize ended : c'.resume held errand (channels.result errand) = stand at further
      obtain ⟨c'', progress⟩ := stand
      cases progress with
      | done outcome => exact ⟨_, c'', outcome, further, meets'⟩
      | handing next =>
          have fewer := followers_resume settled (congrArg Prod.snd ended)
          exact ih (followers next) (count ▸ fewer) further meets' rfl

/-- Whatever the channels do, short of making it wait forever, there is a handling that meets them
and returns. -/
theorem exists_answers (c : Conversation) (message : Message) (held : Bitfield)
    (channels : Channels) (cancels : channels.cancels ≠ .expired)
    (outbound : channels.outbound ≠ .expired) :
    ∃ offers c' outcome, c.Answers (.handle message) held offers (c', .done outcome) ∧
      channels.Meets offers := by
  have begun : c.Answers (.handle message) held [] (c.receive held 0 message) := .start 0
  have meets : channels.Meets [] := List.forall_mem_nil _
  generalize c.receive held 0 message = stand at begun
  obtain ⟨c', progress⟩ := stand
  cases progress with
  | done outcome => exact ⟨[], c', outcome, begun, meets⟩
  | handing errand => exact begun.returns cancels outbound meets

end Returns

end Conversation

end PeerWire

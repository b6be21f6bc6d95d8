import PeerWire.Proofs.Conversation.Requests

/-!
What a failed handling leaves behind. A message is validated and a block is handed over
before anything is noted, so that a handling which fails there leaves the conversation as it
was. The announcement of our interest and the piece request come after that. They can only
fail because nobody is left to take them, and by then the message has been noted: its flag
or its bits stay, and so does the interest recomputed from them. `Failing` sorts the failed
handlings into the two kinds, and `failed_without_trace_iff` says when the state before the
message and the state after the failure are the same.
-/

namespace PeerWire

/-- Something that is offered after the message has been noted. -/
def Offer.isLate (offer : Offer) : Bool :=
  match offer.errand with
  | .announce _ _ | .request _ => true
  | .cancel _ | .deliver _ => false

/-- The message noted, and our interest recomputed against what we hold. -/
def Standing.noted (standing : Standing) (message : Message) (held : Bitfield) : Standing :=
  { standing.hear message with
    amInterested := held.lacksSomeOf (standing.hear message).remote }

/-- A failure is no success. -/
theorem Progress.not_succeeds {progress : Progress} {failure : Failure}
    (failed : .done (.error failure) = progress) : ¬ progress.Succeeds := by
  subst failed
  rintro (done | ⟨errand, handing⟩)
  · cases done
  · cases handing

namespace Standing

variable (standing : Standing) (message : Message)

/-- What a message makes known is about the remote: our own interest, and the time of the last
keep-alive, are not part of it. -/
theorem hear_keeps : (standing.hear message).amInterested = standing.amInterested ∧
    (standing.hear message).lastKeepAlive = standing.lastKeepAlive := by
  cases message with
  | havePiece index =>
      simp only [hear]
      cases standing.remote.set index.toNat <;> exact ⟨rfl, rfl⟩
  | bitfield bits =>
      simp only [hear]
      cases Bitfield.ofBytes? standing.remote.pieces bits <;> exact ⟨rfl, rfl⟩
  | _ => exact ⟨rfl, rfl⟩

/-- Noting a message changes nothing if it tells nothing new and our interest stays. -/
theorem noted_eq_self_iff (held : Bitfield) : standing.noted message held = standing ↔
    standing.hear message = standing ∧
      held.lacksSomeOf standing.remote = standing.amInterested := by
  unfold noted
  constructor
  · intro same
    have interest : held.lacksSomeOf (standing.hear message).remote = standing.amInterested :=
      congrArg amInterested same
    have heard : standing.hear message = standing := by
      rw [interest, ← (standing.hear_keeps message).1] at same
      exact same
    exact ⟨heard, by rwa [heard] at interest⟩
  · rintro ⟨heard, interest⟩
    rw [heard, interest]

end Standing

namespace Conversation

section Handlings

variable {c c' : Conversation} {message : Message} {held : Bitfield} {offers : List Offer}
  {stand : Conversation × Progress}

/-- The time of the last keep-alive is not touched by any other message. -/
theorem Answers.lastKeepAlive (other : message ≠ .keepAlive)
    (answers : c.Answers (.handle message) held offers stand) :
    stand.1.standing.lastKeepAlive = c.standing.lastKeepAlive := by
  induction answers with
  | start now => exact (c.lastKeepAlive_receive held now message).trans (if_neg other)
  | @goOn offers c' errand result held' before ih =>
      obtain ⟨amInterested, same⟩ := c'.resume_fst held' errand result
      rw [same]
      exact ih

/-- Such a message is noted from the first step on, up to our interest. -/
theorem Answers.standing_of_prompts (sized : c.Sized) (prompts : message.prompts = true)
    (answers : c.Answers (.handle message) held offers stand) :
    stand.1.standing = { c.standing.hear message with
      amInterested := stand.1.standing.amInterested } := by
  have other : message ≠ .keepAlive := by
    rintro rfl
    contradiction
  obtain ⟨ours, choking, interest, remote⟩ := Standing.eq_of_aboutRemote (answers.about sized)
  have alive := (answers.lastKeepAlive other).trans (c.standing.hear_keeps message).2.symm
  generalize stand.1.standing = known at *
  cases known
  simp_all [Call.hear]

/-- A message that prompts nothing can only wait for a cancellation to be handed over, and
is done with everything else. -/
theorem Answers.of_unprompting (passes : message.prompts = false)
    (answers : c.Answers (.handle message) held offers stand) :
    (∀ offer ∈ offers, offer.isLate = false) ∧
      ∀ errand, stand.2 = .handing errand →
        stand.1 = c ∧ ∃ ref, message = .cancel ref ∧ errand = .cancel ref := by
  induction answers with
  | start now =>
      refine ⟨by simp, ?_⟩
      intro errand handing
      cases message with
      | cancel ref =>
          cases handing
          exact ⟨rfl, ref, rfl, rfl⟩
      | _ => contradiction
  | @goOn offers c' errand result held' before ih =>
      obtain ⟨early, waits⟩ := ih
      obtain ⟨rfl, ref, rfl, rfl⟩ := waits errand rfl
      constructor
      · exact List.forall_mem_append.mpr ⟨early, List.forall_mem_singleton.mpr rfl⟩
      · intro errand' handing
        cases result with
        | expired =>
            cases handing
            exact ⟨rfl, ref, rfl, rfl⟩
        | _ => cases handing

/-- How a handling can fail. -/
inductive Failing (c : Conversation) (message : Message) (held : Bitfield) :
    List Offer → Conversation → Prop where
  /-- Before anything was noted. -/
  | untouched {offers : List Offer} (early : ∀ offer ∈ offers, offer.isLate = false) :
      Failing c message held offers c
  /-- At something that is offered later, for want of somebody to take it. -/
  | noted {offers : List Offer} {offer : Offer} (prompts : message.prompts = true)
      (late : offer.isLate = true) (closed : offer.result = .closed) :
      Failing c message held (offers ++ [offer])
        { c with standing := c.standing.noted message (heldAtReview held (offers ++ [offer])) }

/-- Once our interest is recomputed, the message is noted, and nothing else has changed. -/
theorem Answers.noted {progress : Progress} {atReview : Bitfield} (sized : c.Sized)
    (prompts : message.prompts = true)
    (answers : c.Answers (.handle message) held offers (c', progress))
    (interest : c'.standing.amInterested = atReview.lacksSomeOf c'.standing.remote) :
    c' = { c with standing := c.standing.noted message atReview } := by
  have standing : c'.standing = { c.standing.hear message with
      amInterested := c'.standing.amInterested } := answers.standing_of_prompts sized prompts
  have remote : c'.standing.remote = (c.standing.hear message).remote := by rw [standing]
  have noted : c'.standing = c.standing.noted message atReview := by
    rw [remote] at interest
    rw [Standing.noted, ← interest]
    exact standing
  obtain ⟨whole, connection⟩ := answers.same_connection
  rw [← noted, show c' = { c with standing := whole } from connection]

/-- A failure for want of somebody to take something leaves the message noted. -/
theorem Answers.failing_late {offer : Offer} {progress : Progress} (sized : c.Sized)
    (prompts : message.prompts = true)
    (answers : c.Answers (.handle message) held (offers ++ [offer]) (c', progress))
    (late : offer.isLate = true) (closed : offer.result = .closed)
    (interest : c'.standing.amInterested =
      (heldAtReview held offers).lacksSomeOf c'.standing.remote) :
    c.Failing message held (offers ++ [offer]) c' := by
  have other : offer.delivers = false := by
    obtain ⟨errand, result, held'⟩ := offer
    cases errand with
    | announce interested thenRequest => rfl
    | request remote => rfl
    | _ => contradiction
  rw [← heldAtReview_concat other] at interest
  rw [answers.noted sized prompts interest]
  exact .noted prompts late closed

/-- A handling that fails at its last offer fails in one of the two ways. -/
theorem Stands.failing {failure : Failure} {errand : Errand} {result : HandOver}
    {held' : Bitfield} {before : Conversation} (sized : c.Sized)
    (prompts : message.prompts = true)
    (stands : c.Stands (.handle message) held offers (before, .handing errand))
    (answers : c.Answers (.handle message) held (offers ++ [⟨errand, result, held'⟩])
      (c', .done (.error failure)))
    (ended : (c', .done (.error failure)) = before.resume held' errand result) :
    c.Failing message held (offers ++ [⟨errand, result, held'⟩]) c' := by
  cases stands with
  | delivering handles =>
      cases result with
      | accepted =>
          exact absurd (c.reviewInterest_succeeds held' true)
            (Progress.not_succeeds (congrArg Prod.snd ended))
      | _ =>
          cases ended
          exact .untouched (List.forall_mem_singleton.mpr rfl)
  | retracting reviewed announced passes =>
      have passes : message.prompts = false := passes
      rw [prompts] at passes
      contradiction
  | announcing reviewed reviews changed silent =>
      cases result with
      | accepted =>
          exact absurd (before.afterInterest_succeeds held' message.prompts)
            (Progress.not_succeeds (congrArg Prod.snd ended))
      | closed =>
          cases ended
          exact answers.failing_late sized prompts rfl rfl
            (reviewed.interest.trans (if_pos reviews))
      | expired => cases ended
  | asking reviewed announced considers may =>
      cases result with
      | closed =>
          cases ended
          exact answers.failing_late sized prompts rfl rfl
            (reviewed.interest.trans (if_pos considers))
      | _ => cases ended

/-- A handling that fails before it has offered anything leaves everything as it was. -/
theorem Answers.failed_at_once {failure : Failure} (sized : c.Sized)
    (answers : c.Answers (.handle message) held [] (c', .done (.error failure))) : c' = c := by
  cases verdict : message.rejection? c.pieces with
  | some fault => exact congrArg Prod.fst (answers.underway.of_rejected sized verdict)
  | none =>
      generalize ended : (c', Progress.done (.error failure)) = stand at answers
      generalize none : ([] : List Offer) = offers at answers
      cases answers with
      | start now =>
          exact absurd (receive_of_accepted sized verdict).1
            (Progress.not_succeeds (congrArg Prod.snd ended))
      | goOn result held' before => simp at none

/-- A failed handling has failed in one of the two ways. -/
theorem Answers.failing {failure : Failure} (sized : c.Sized)
    (answers : c.Answers (.handle message) held offers (c', .done (.error failure))) :
    c.Failing message held offers c' := by
  rcases List.eq_nil_or_concat offers with rfl | ⟨earlier, offer, rfl⟩
  · obtain rfl := answers.failed_at_once sized
    exact .untouched (by simp)
  rw [List.concat_eq_append] at answers ⊢
  obtain ⟨before, waiting, ended⟩ := answers.last
  cases prompts : message.prompts with
  | true => exact (waiting.stands sized).failing sized prompts answers ended
  | false =>
      obtain ⟨early, waits⟩ := waiting.of_unprompting prompts
      obtain ⟨rfl, ref, rfl, retracts⟩ := waits offer.errand rfl
      rw [retracts] at ended
      have same : c' = before := by
        generalize offer.result = result at ended
        cases result with
        | closed =>
            cases ended
            rfl
        | _ => cases ended
      rw [same]
      apply Failing.untouched
      have last : offer.isLate = false := by rw [Offer.isLate, retracts]
      exact List.forall_mem_append.mpr ⟨early, List.forall_mem_singleton.mpr last⟩

end Handlings

/-- When a failed handling has left no trace.

After any calls, a message whose handling fails leaves the conversation exactly as it was if
nothing was offered that comes after the message is noted: it was invalid, or its block or
its cancellation was not taken. Otherwise it failed because nobody was left to take the last
offer, an announcement of our interest or a piece request; the message stays noted then, with
our interest recomputed from it, and nothing else has changed. So the state is the one from
before exactly if the failure came early, or the message told nothing new and left our
interest as it was. -/
theorem failed_without_trace_iff (addr : String) (pieces : UInt64) (channel : Nat)
    (c : Conversation) (reached : (start addr pieces channel).Reached c) (message : Message)
    (held : Bitfield) (offers : List Offer) (c' : Conversation) (failure : Failure)
    (failed : c.Answers (.handle message) held offers (c', .done (.error failure))) :
    ((∀ offer ∈ offers, offer.isLate = false) → c' = c) ∧
    ((∃ offer ∈ offers, offer.isLate = true) →
      message.prompts = true ∧
      (∃ earlier last, offers = earlier ++ [last] ∧ last.isLate = true ∧
        last.result = .closed) ∧
      c' = { c with standing := c.standing.noted message (heldAtReview held offers) }) ∧
    (c' = c ↔ (∀ offer ∈ offers, offer.isLate = false) ∨
      c.standing.hear message = c.standing ∧
        (heldAtReview held offers).lacksSomeOf c.standing.remote = c.standing.amInterested) := by
  have sized := (reached.fit (fit_start addr pieces channel)).sized
  cases failed.failing sized with
  | untouched early =>
      refine ⟨fun _ => rfl, ?_, iff_of_true rfl (.inl early)⟩
      rintro ⟨offer, listed, late⟩
      rw [early offer listed] at late
      contradiction
  | @noted earlier last prompts late closed =>
      have among : last ∈ earlier ++ [last] := by simp
      have notEarly : ¬ ∀ offer ∈ earlier ++ [last], offer.isLate = false := by
        intro early
        rw [early last among] at late
        contradiction
      refine ⟨fun early => absurd early notEarly,
        fun _ => ⟨prompts, ⟨earlier, last, rfl, late, closed⟩, rfl⟩, ?_⟩
      rw [or_iff_right notEarly, ← Standing.noted_eq_self_iff]
      constructor
      · intro same
        exact congrArg standing same
      · intro same
        rw [same]

/-- The remote has a piece we want and unchokes us, and the scheduler is gone: a choke that
is taken back stays taken back, with a failure for all that. -/
theorem failed_without_trace_iff_unchoked :
    let nothing : Bitfield := .empty 4
    let wanting : Standing := { remote := ⟨4, [128]⟩, amInterested := true }
    let gone : Failure := .peer (.channelClosed "scheduler requests")
    let c : Conversation := { start "10.0.0.7:6881" 4 0 with standing := wanting }
    let c' : Conversation := { c with standing := { wanting with peerChoking := false } }
    (start "10.0.0.7:6881" 4 0).Reached c ∧
      c.Answers (.handle .unchoke) nothing [⟨.request ⟨4, [128]⟩, .closed, nothing⟩]
        (c', .done (.error gone)) ∧
      c' = { c with standing := c.standing.noted .unchoke nothing } ∧ c' ≠ c := by
  intro nothing wanting gone c c'
  have announcing : (start "10.0.0.7:6881" 4 0).Answers (.handle (.havePiece 0)) nothing []
      (c, .handing (.announce true true)) := .start 0
  have reached : (start "10.0.0.7:6881" 4 0).Reached c :=
    Reached.start.next (announcing.goOn .accepted nothing)
  have asking : c.Answers (.handle .unchoke) nothing [] (c', .handing (.request ⟨4, [128]⟩)) :=
    .start 1
  have failed : c.Answers (.handle .unchoke) nothing
      [⟨.request ⟨4, [128]⟩, .closed, nothing⟩] (c', .done (.error gone)) :=
    asking.goOn .closed nothing
  obtain ⟨-, late, unchanged⟩ :=
    failed_without_trace_iff "10.0.0.7:6881" 4 0 c reached .unchoke nothing _ c' gone failed
  refine ⟨reached, failed, (late ⟨_, List.mem_singleton_self _, rfl⟩).2.2, ?_⟩
  refine mt unchanged.mp ?_
  rintro (early | ⟨heard, -⟩)
  · have other := early _ (List.mem_singleton_self _)
    contradiction
  · cases heard

end Conversation

/-- A fresh connection whose write queue is gone hears that the remote has a piece. The
handling fails, but the piece and our interest in it stay, and are shown to others. -/
theorem Desk.failed_with_trace :
    let desk : Desk :=
      { conversation := .start "192.168.1.7:6881" 4 0
        field := .empty 4
        handOff := 50
        outbound := (Mailbox.ofCapacity 16).close
        cancels := .ofCapacity 16
        requests := .ofCapacity 16
        deliveries := .ofCapacity 16 }
    let after := (desk.handle 1000 (.havePiece 0)).1
    (desk.handle 1000 (.havePiece 0)).2 =
        .returned (.error (.peer (.channelClosed "write queue"))) ∧
      desk.conversation.standing.amInterested = false ∧
      after.conversation.standing.amInterested = true ∧
      desk.conversation.standing.remote.has 0 = false ∧
      after.conversation.standing.remote.has 0 = true ∧
      after.status.amInterested = true ∧ after.status.remotePieces = 1 := by
  refine ⟨rfl, ?_⟩
  decide

end PeerWire

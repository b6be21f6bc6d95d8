import PeerWire.Proofs.Conversation.Calls

/-!
When the handling of a message asks the scheduler for a block. The four kinds of messages
that can make a request possible consider one at their end, on what has become of the flags,
of the remote's bitfield and of what we hold by then. Whether there is room for the request
decides whether the scheduler gets it, and nothing else; a scheduler that is gone makes the
handling fail.
-/

namespace PeerWire

namespace Conversation

/-- The piece requests that a call has handed over. -/
def requested (c : Conversation) (offers : List Offer) : List PieceRequest :=
  (c.emitted offers).filterMap Emission.request?

/-- The handling has come to consider a piece request: the message is one that does, is
valid, and has handed over whatever had to go before. -/
structure Prepared (c : Conversation) (message : Message) (offers : List Offer) : Prop where
  prompts : message.prompts = true
  valid : message.rejection? c.pieces = none
  smooth : ∀ offer ∈ offers, offer.failsEarly = false

/-- What we hold when a piece request is considered. -/
def heldAtRequest (held : Bitfield) (offers : List Offer) : Bitfield :=
  heldLast held (offers.filter fun offer => !offer.asks)

section Handlings

variable {c c' : Conversation} {message : Message} {held : Bitfield} {offers : List Offer}

theorem not_asked (unasked : ∀ offer ∈ offers, offer.asks = false) :
    ¬ ∃ offer ∈ offers, offer.asks = true := by
  rintro ⟨offer, listed, asks⟩
  rw [unasked offer listed] at asks
  contradiction

theorem heldAtRequest_of_unasked (unasked : ∀ offer ∈ offers, offer.asks = false) :
    heldAtRequest held offers = heldLast held offers := by
  rw [heldAtRequest, List.filter_eq_self.mpr]
  intro offer listed
  rw [unasked offer listed]
  rfl

theorem heldAtRequest_concat {offer : Offer} (asks : offer.asks = true) :
    heldAtRequest held (offers ++ [offer]) = heldAtRequest held offers := by
  simp [heldAtRequest, asks]

theorem heldLast_of_same (same : ∀ offer ∈ offers, offer.held = held) :
    heldLast held offers = held := by
  unfold heldLast
  cases last : offers.getLast? with
  | none => rfl
  | some offer => exact same offer (List.mem_of_getLast? last)

theorem requested_concat (c : Conversation) (offers : List Offer) (offer : Offer) :
    c.requested (offers ++ [offer]) =
      c.requested offers ++ ((offer.emission? c).bind Emission.request?).toList := by
  rw [requested, requested, emitted_concat, List.filterMap_append]
  cases offer.emission? c with
  | none => rfl
  | some emission => cases emission <;> rfl

/-- The scheduler gets a request only where one is offered. -/
theorem requested_of_unasked (unasked : ∀ offer ∈ offers, offer.asks = false) :
    c.requested offers = [] := by
  rw [requested, emitted, List.filterMap_filterMap, List.filterMap_eq_nil_iff]
  rintro ⟨errand, result, held⟩ listed
  have other := unasked _ listed
  cases errand with
  | request remote => contradiction
  | _ =>
      by_cases accepted : result = .accepted <;>
        simp [Offer.emission?, accepted, Errand.emission, Emission.request?]

/-- The scheduler gets the request that is offered last, if it has room for it. -/
theorem requested_asked (unasked : ∀ offer ∈ offers, offer.asks = false) (remote held' : Bitfield)
    (result : HandOver) : c.requested (offers ++ [⟨.request remote, result, held'⟩]) =
      if result = .accepted then [c.pieceRequest remote] else [] := by
  rw [requested_concat, requested_of_unasked unasked]
  by_cases accepted : result = .accepted <;>
    simp [Offer.emission?, accepted, Errand.emission, Emission.request?]

/-- The offer that a call made last. -/
theorem Answers.last {call : Call} {offer : Offer} {stand : Conversation × Progress}
    (answers : c.Answers call held (offers ++ [offer]) stand) :
    ∃ before, c.Answers call held offers (before, .handing offer.errand) ∧
      stand = before.resume offer.held offer.errand offer.result := by
  generalize listed : offers ++ [offer] = all at answers
  cases answers with
  | start now => simp at listed
  | goOn result held' before =>
      obtain ⟨rfl, same⟩ := List.append_inj' listed rfl
      cases same
      exact ⟨_, before, rfl⟩

theorem resume_request (c : Conversation) (held remote : Bitfield) (result : HandOver) :
    c.resume held (.request remote) result = (c, .done result.afterRequest) := by
  cases result <;> rfl

/-- A request does not count among the steps before it. -/
theorem prepared_concat {offer : Offer} (asks : offer.asks = true) :
    c.Prepared message (offers ++ [offer]) ↔ c.Prepared message offers := by
  have late : offer.failsEarly = false := by
    obtain ⟨errand, result, held⟩ := offer
    cases errand with
    | request remote => rfl
    | _ => contradiction
  constructor
  · intro prepared
    exact ⟨prepared.prompts, prepared.valid, (List.forall_mem_append.mp prepared.smooth).1⟩
  · intro prepared
    exact ⟨prepared.prompts, prepared.valid,
      List.forall_mem_append.mpr ⟨prepared.smooth, List.forall_mem_singleton.mpr late⟩⟩

theorem Reviewed.prepared (reviewed : c.Reviewed (.handle message) held offers c')
    (prompts : message.prompts = true) : c.Prepared message offers :=
  ⟨prompts, reviewed.accepted message rfl, reviewed.smooth⟩

/-- How a handling ends, as far as a piece request is concerned. -/
inductive Decision (c : Conversation) (message : Message) (held : Bitfield) :
    List Offer → Conversation → Except Failure Unit → Prop where
  /-- It was allowed, and offered. -/
  | asked {offers : List Offer} {c' : Conversation} {result : HandOver} {held' : Bitfield}
      (prepared : c.Prepared message offers) (unasked : ∀ offer ∈ offers, offer.asks = false)
      (interest : c'.standing.amInterested =
        (heldAtReview held offers).lacksSomeOf c'.standing.remote)
      (may : c'.mayRequest (heldLast held offers) = true) :
      Decision c message held (offers ++ [⟨.request c'.standing.remote, result, held'⟩]) c'
        result.afterRequest
  /-- It was not allowed. -/
  | passed {offers : List Offer} {c' : Conversation}
      (prepared : c.Prepared message offers) (unasked : ∀ offer ∈ offers, offer.asks = false)
      (interest : c'.standing.amInterested =
        (heldAtReview held offers).lacksSomeOf c'.standing.remote)
      (mayNot : c'.mayRequest (heldLast held offers) = false) :
      Decision c message held offers c' (.ok ())
  /-- None was considered. -/
  | unprepared {offers : List Offer} {c' : Conversation} {outcome : Except Failure Unit}
      (unprepared : ¬ c.Prepared message offers) (unasked : ∀ offer ∈ offers, offer.asks = false) :
      Decision c message held offers c' outcome

theorem Answers.decision {outcome : Except Failure Unit} (sized : c.Sized)
    (answers : c.Answers (.handle message) held offers (c', .done outcome)) :
    c.Decision message held offers c' outcome := by
  generalize ended : (c', Progress.done outcome) = stand at answers
  cases answers.stands sized with
  | rejected handles rejected =>
      cases handles
      cases ended
      refine .unprepared ?_ (by simp)
      intro prepared
      rw [prepared.valid] at rejected
      contradiction
  | asked reviewed announced considers may =>
      cases ended
      exact .asked (reviewed.prepared considers) reviewed.unasked
        (reviewed.interest.trans (if_pos considers)) may
  | settled reviewed announced mayNot =>
      cases ended
      by_cases prompts : message.prompts = true
      · exact .passed (reviewed.prepared prompts) reviewed.unasked
          (reviewed.interest.trans (if_pos prompts)) (mayNot prompts)
      · exact .unprepared (fun prepared => prompts prepared.prompts) reviewed.unasked
  | failed unasked early =>
      cases ended
      refine .unprepared ?_ unasked
      intro prepared
      obtain ⟨offer, listed, fails⟩ := early
      rw [prepared.smooth offer listed] at fails
      contradiction
  | _ => cases ended

end Handlings

/-- A block is asked for exactly when that is allowed.

After any calls, the handling of a message offers a piece request if and only if the message
is one that considers it, everything before has succeeded, and the condition holds of what
the message has made known, of the interest recomputed from that, and of what we hold by
then. The request is then the last and only one. The scheduler gets it, with what the remote
holds after the message, if it finds room; how it ends decides the outcome and nothing else,
so that a request which found no room leaves the same state as one that did. Where none is
offered, the scheduler gets none, and the handling succeeds if it had come that far. -/
theorem requested_iff_allowed (addr : String) (pieces : UInt64) (channel : Nat) (c : Conversation)
    (reached : (start addr pieces channel).Reached c) (message : Message) (held : Bitfield)
    (offers : List Offer) (c' : Conversation) (outcome : Except Failure Unit)
    (answers : c.Answers (.handle message) held offers (c', .done outcome)) :
    ((∃ offer ∈ offers, offer.asks = true) ↔
      c.Prepared message offers ∧ c'.mayRequest (heldAtRequest held offers) = true) ∧
    (c.Prepared message offers →
      c'.standing.aboutRemote = (c.standing.hear message).aboutRemote ∧
      c'.standing.amInterested = (heldAtReview held offers).lacksSomeOf c'.standing.remote) ∧
    (∀ offer ∈ offers, offer.asks = true →
      outcome = offer.result.afterRequest ∧
      c.requested offers =
        (if offer.result = .accepted then [⟨addr, c'.standing.remote, channel⟩] else []) ∧
      ∃ earlier, offers = earlier ++ [offer] ∧ (∀ one ∈ earlier, one.asks = false) ∧
        ∀ result, c.Answers (.handle message) held (earlier ++ [{ offer with result }])
          (c', .done result.afterRequest)) ∧
    ((∀ offer ∈ offers, offer.asks = false) →
      c.requested offers = [] ∧ (c.Prepared message offers → outcome = .ok ())) := by
  have sized := (reached.fit (fit_start addr pieces channel)).sized
  have about := answers.about sized
  obtain ⟨standing, connection⟩ := reached.same_connection
  cases answers.decision sized with
  | @asked offers c' result held' prepared unasked interest may =>
      have asks : (⟨.request c'.standing.remote, result, held'⟩ : Offer).asks = true := rfl
      refine ⟨?_, ?_, ?_, ?_⟩
      · rw [prepared_concat asks, heldAtRequest_concat asks, heldAtRequest_of_unasked unasked]
        exact iff_of_true ⟨_, by simp, asks⟩ ⟨prepared, may⟩
      · intro _
        rw [heldAtReview_concat rfl]
        exact ⟨about, interest⟩
      · intro offer listed asks'
        obtain rfl : offer = ⟨.request c'.standing.remote, result, held'⟩ := by
          rcases List.mem_append.mp listed with before | now
          · exact absurd ⟨offer, before, asks'⟩ (not_asked unasked)
          · exact List.mem_singleton.mp now
        obtain ⟨before, waiting, same⟩ := answers.last
        rw [resume_request] at same
        obtain rfl : c' = before := congrArg Prod.fst same
        refine ⟨rfl, ?_, offers, rfl, unasked, ?_⟩
        · rw [requested_asked unasked, connection]
          rfl
        · intro result'
          have otherwise := waiting.goOn result' held'
          rw [resume_request] at otherwise
          exact otherwise
      · intro none
        exact absurd ⟨_, by simp, asks⟩ (not_asked none)
  | passed prepared unasked interest mayNot =>
      refine ⟨?_, fun _ => ⟨about, interest⟩, ?_,
        fun _ => ⟨requested_of_unasked unasked, fun _ => rfl⟩⟩
      · rw [heldAtRequest_of_unasked unasked, mayNot]
        exact iff_of_false (not_asked unasked) (by simp)
      · intro offer listed asks
        exact absurd ⟨offer, listed, asks⟩ (not_asked unasked)
  | unprepared unprepared unasked =>
      refine ⟨?_, fun prepared => absurd prepared unprepared, ?_,
        fun _ => ⟨requested_of_unasked unasked, fun prepared => absurd prepared unprepared⟩⟩
      · exact iff_of_false (not_asked unasked) fun both => unprepared both.1
      · intro offer listed asks
        exact absurd ⟨offer, listed, asks⟩ (not_asked unasked)

/-- We are unchoked by a remote that has a piece we want; the scheduler has no room at first. -/
theorem requested_iff_allowed_expired :
    let nothing : Bitfield := .empty 4
    let asking : Errand := .request ⟨4, [64]⟩
    ∃ c c', (start "10.0.0.7:6881" 4 0).Reached c ∧
      c.Answers (.handle .unchoke) nothing [⟨asking, .expired, nothing⟩] (c', .ok) ∧
      c.requested [⟨asking, .expired, nothing⟩] = [] ∧
      c.Answers (.handle .unchoke) nothing [⟨asking, .accepted, nothing⟩] (c', .ok) ∧
      c.requested [⟨asking, .accepted, nothing⟩] = [⟨"10.0.0.7:6881", ⟨4, [64]⟩, 0⟩] := by
  intro nothing asking
  let after (standing : Standing) : Conversation :=
    { start "10.0.0.7:6881" 4 0 with standing }
  let wanting : Standing := { remote := ⟨4, [64]⟩, amInterested := true }
  let unchoked : Standing := { wanting with peerChoking := false }
  have announcing : (start "10.0.0.7:6881" 4 0).Answers (.handle (.havePiece 1)) nothing []
      (after wanting, .handing (.announce true true)) := .start 0
  have reached : (start "10.0.0.7:6881" 4 0).Reached (after wanting) :=
    Reached.start.next (announcing.goOn .accepted nothing)
  have waiting : (after wanting).Answers (.handle .unchoke) nothing []
      (after unchoked, .handing asking) := .start 1
  have expired : (after wanting).Answers (.handle .unchoke) nothing
      [⟨asking, .expired, nothing⟩] (after unchoked, .ok) := waiting.goOn .expired nothing
  have asked := (requested_iff_allowed _ _ _ _ reached _ _ _ _ _ expired).2.2.1
  obtain ⟨-, kept, earlier, listed, -, otherwise⟩ :=
    asked ⟨asking, .expired, nothing⟩ (List.mem_singleton_self _) rfl
  obtain rfl : earlier = [] := (List.append_inj' listed.symm rfl).1
  refine ⟨after wanting, after unchoked, reached, expired, kept, otherwise .accepted, ?_⟩
  have taken := (requested_iff_allowed _ _ _ _ reached _ _ _ _ _ (otherwise .accepted)).2.2.1
  exact (taken _ (List.mem_singleton_self _) rfl).2.1

end Conversation

/-! ### At a desk -/

namespace Desk

open Conversation

/-- A handling that returns at a desk adds to the scheduler's mailbox at most one piece
request, which was allowed and asks for what the remote holds after the message. -/
theorem asks_at_most_once {desk desk' : Desk} {patience : Nat} {message : Message}
    {outcome : Except Failure Unit} (sized : desk.conversation.Sized)
    (handled : desk.handle patience message = (desk', .returned outcome)) :
    desk'.requests.items = desk.requests.items ∨
      desk'.conversation.mayRequest desk.field = true ∧ outcome = .ok () ∧
        desk'.requests.items = desk.requests.items ++
          [desk'.conversation.pieceRequest desk'.conversation.standing.remote] := by
  have called : desk.call patience (.handle message) = (desk', .returned outcome) := handled
  obtain ⟨offers, serves⟩ := serves_call called
  obtain ⟨standing, connection⟩ := serves.answers.same_connection
  have sent : desk'.requests.items =
      desk.requests.items ++ desk.conversation.requested offers := serves.sends.requests
  cases serves.answers.decision sized with
  | @asked offers c' result held' prepared unasked interest may =>
      rw [requested_asked unasked] at sent
      by_cases accepted : result = .accepted
      · have field : heldLast desk.field offers = desk.field :=
          heldLast_of_same (List.forall_mem_append.mp serves.held).1
        rw [field] at may
        rw [if_pos accepted] at sent
        refine .inr ⟨may, by rw [accepted]; rfl, ?_⟩
        rw [sent, show desk'.conversation = _ from connection]
        rfl
      · rw [if_neg accepted, List.append_nil] at sent
        exact .inl sent
  | passed prepared unasked interest mayNot =>
      rw [requested_of_unasked unasked, List.append_nil] at sent
      exact .inl sent
  | unprepared unprepared unasked =>
      rw [requested_of_unasked unasked, List.append_nil] at sent
      exact .inl sent

end Desk

end PeerWire

import PeerWire.Conversation.Desk
import PeerWire.Proofs.Conversation.Known
import PeerWire.Proofs.Mailbox

/-!
What a conversation does with a call, from its first step to its last. On its way a call
offers things to others: a block and a piece request to the scheduler, an announcement of
our interest or a cancellation to the write queue. `Answers` lets every offer end in any
way, and lets what we hold be anything whenever the call goes on. `Stands` sorts how far a
call can have come; what is said of calls elsewhere is read off it.
-/

namespace PeerWire

/-- After such a message our interest is recomputed and a piece request is considered. -/
def Message.prompts : Message → Bool
  | .unchoke | .havePiece _ | .bitfield _ | .piece _ => true
  | _ => false

/-- What a conversation can be asked to do. -/
inductive Call where
  | handle (message : Message)
  | checkInterested
  | tryRequest
  | recordKeepAlive
deriving DecidableEq, Repr

/-- The call recomputes our interest. -/
def Call.reviews : Call → Bool
  | .handle message => message.prompts
  | .checkInterested => true
  | .tryRequest | .recordKeepAlive => false

/-- The call considers a piece request. -/
def Call.considers : Call → Bool
  | .handle message => message.prompts
  | .tryRequest => true
  | .checkInterested | .recordKeepAlive => false

/-- What a call makes known. -/
def Call.hear (standing : Standing) : Call → Standing
  | .handle message => standing.hear message
  | .checkInterested | .tryRequest | .recordKeepAlive => standing

/-- Something offered to others, what became of it, and what we hold by then. -/
structure Offer where
  errand : Errand
  result : HandOver
  held : Bitfield
deriving DecidableEq, Repr

namespace Offer

/-- A block is offered. -/
def delivers (offer : Offer) : Bool :=
  match offer.errand with
  | .deliver _ => true
  | _ => false

/-- A piece request is offered. -/
def asks (offer : Offer) : Bool :=
  match offer.errand with
  | .request _ => true
  | _ => false

/-- The call fails here, before it considers a piece request. -/
def failsEarly (offer : Offer) : Bool :=
  match offer.errand with
  | .request _ => false
  | .deliver _ => offer.result ≠ .accepted
  | .cancel _ | .announce _ _ => offer.result = .closed

/-- What others got. -/
def emission? (c : Conversation) (offer : Offer) : Option Emission :=
  if offer.result = .accepted then some (offer.errand.emission c) else none

end Offer

/-- How a call ends that has offered a piece request: only a scheduler that is gone is a
failure. -/
def HandOver.afterRequest : HandOver → Except Failure Unit
  | .accepted | .expired => .ok ()
  | .closed => .error (.peer (.channelClosed "scheduler requests"))

/-- A message on its way out. -/
def Emission.outbound? : Emission → Option Message
  | .outbound message => some message
  | _ => none

/-- A piece request. -/
def Emission.request? : Emission → Option PieceRequest
  | .request asked => some asked
  | _ => none

/-- What we held when interest was recomputed: a block is delivered before that. -/
def heldAtReview (held : Bitfield) (offers : List Offer) : Bitfield :=
  ((offers.find? Offer.delivers).map Offer.held).getD held

/-- What we held last. -/
def heldLast (held : Bitfield) (offers : List Offer) : Bitfield :=
  (offers.getLast?.map Offer.held).getD held

theorem heldAtReview_concat {held : Bitfield} {offers : List Offer} {offer : Offer}
    (other : offer.delivers = false) :
    heldAtReview held (offers ++ [offer]) = heldAtReview held offers := by
  unfold heldAtReview
  rw [List.find?_append]
  simp [other]

theorem heldLast_concat (held : Bitfield) (offers : List Offer) (offer : Offer) :
    heldLast held (offers ++ [offer]) = offer.held := by
  simp [heldLast]

namespace Conversation

/-- What others got out of a call. -/
def emitted (c : Conversation) (offers : List Offer) : List Emission :=
  offers.filterMap (Offer.emission? c)

/-- We want something, may ask, and still lack a piece. -/
def mayRequest (c : Conversation) (held : Bitfield) : Bool :=
  c.standing.amInterested && !c.standing.peerChoking && !held.isComplete

/-- Begins a call. -/
def begin (c : Conversation) (held : Bitfield) (now : Nat) : Call → Conversation × Progress
  | .handle message => c.receive held now message
  | .checkInterested => c.reviewInterest held false
  | .tryRequest => (c, c.considerRequest held)
  | .recordKeepAlive => (c.recordKeepAlive now, .ok)

/-- How far a call may have come, and what it has offered on the way. -/
inductive Answers (c : Conversation) (call : Call) (held : Bitfield) :
    List Offer → Conversation × Progress → Prop where
  | start (now : Nat) : Answers c call held [] (c.begin held now call)
  | goOn {offers : List Offer} {c' : Conversation} {errand : Errand} (result : HandOver)
      (held' : Bitfield) (before : Answers c call held offers (c', .handing errand)) :
      Answers c call held (offers ++ [⟨errand, result, held'⟩]) (c'.resume held' errand result)

section Emitted

variable (c : Conversation) (offers : List Offer) (offer : Offer)

theorem emitted_concat :
    c.emitted (offers ++ [offer]) = c.emitted offers ++ (offer.emission? c).toList := by
  rw [emitted, List.filterMap_append]
  cases found : offer.emission? c <;> simp [emitted, found]

theorem considerRequest_eq (held : Bitfield) : c.considerRequest held =
    if c.mayRequest held then .handing (.request c.standing.remote) else .ok := by
  unfold considerRequest mayRequest
  cases c.standing.amInterested <;> cases c.standing.peerChoking <;> cases held.isComplete <;> rfl

end Emitted

/-! ### How far a call can have come -/

/-- Nothing has failed on the way of the call, and no request was offered. -/
structure Unhindered (c : Conversation) (call : Call) (offers : List Offer) : Prop where
  accepted : ∀ message, call = .handle message → message.rejection? c.pieces = none
  unasked : ∀ offer ∈ offers, offer.asks = false
  smooth : ∀ offer ∈ offers, offer.failsEarly = false

/-- The interest is as the call leaves it. -/
structure Reviewed (c : Conversation) (call : Call) (held : Bitfield) (offers : List Offer)
    (c' : Conversation) : Prop extends Unhindered c call offers where
  interest : c'.standing.amInterested =
    if call.reviews then (heldAtReview held offers).lacksSomeOf c'.standing.remote
    else c.standing.amInterested

/-- A change of the interest was announced, and nothing else. -/
def Announced (c : Conversation) (offers : List Offer) (c' : Conversation) : Prop :=
  (c.emitted offers).filterMap Emission.outbound? =
    if c'.standing.amInterested = c.standing.amInterested then []
    else [.ofInterest c'.standing.amInterested]

/-- How far a call can have come. -/
inductive Stands (c : Conversation) (call : Call) (held : Bitfield) :
    List Offer → Conversation × Progress → Prop where
  /-- The message is of no use to us. -/
  | rejected {message : Message} {fault : PeerFault} (handles : call = .handle message)
      (rejected : message.rejection? c.pieces = some fault) : Stands c call held [] (c, .fail fault)
  | delivering {block : Block} (handles : call = .handle (.piece block)) :
      Stands c call held [] (c, .handing (.deliver block))
  | retracting {offers : List Offer} {c' : Conversation} {ref : BlockRef}
      (reviewed : Reviewed c call held offers c') (announced : Announced c offers c')
      (passes : call.considers = false) : Stands c call held offers (c', .handing (.cancel ref))
  | announcing {offers : List Offer} {c' : Conversation}
      (reviewed : Reviewed c call held offers c') (reviews : call.reviews = true)
      (changed : c'.standing.amInterested ≠ c.standing.amInterested)
      (silent : (c.emitted offers).filterMap Emission.outbound? = []) :
      Stands c call held offers
        (c', .handing (.announce c'.standing.amInterested call.considers))
  | asking {offers : List Offer} {c' : Conversation} (reviewed : Reviewed c call held offers c')
      (announced : Announced c offers c') (considers : call.considers = true)
      (may : c'.mayRequest (heldLast held offers) = true) :
      Stands c call held offers (c', .handing (.request c'.standing.remote))
  /-- The request was offered, and given up where it found no room. -/
  | asked {offers : List Offer} {c' : Conversation} {result : HandOver} {held' : Bitfield}
      (reviewed : Reviewed c call held offers c') (announced : Announced c offers c')
      (considers : call.considers = true) (may : c'.mayRequest (heldLast held offers) = true) :
      Stands c call held (offers ++ [⟨.request c'.standing.remote, result, held'⟩])
        (c', .done result.afterRequest)
  /-- There was no request to make. -/
  | settled {offers : List Offer} {c' : Conversation} (reviewed : Reviewed c call held offers c')
      (announced : Announced c offers c')
      (mayNot : call.considers = true → c'.mayRequest (heldLast held offers) = false) :
      Stands c call held offers (c', .ok)
  /-- An offer failed before a request was considered. -/
  | failed {offers : List Offer} {c' : Conversation} {fault : PeerFault}
      (unasked : ∀ offer ∈ offers, offer.asks = false)
      (early : ∃ offer ∈ offers, offer.failsEarly = true) :
      Stands c call held offers (c', .fail fault)

section Steps

variable {c c' : Conversation} {call : Call} {held : Bitfield} {offers : List Offer}

theorem unhindered_nil (c : Conversation) (call : Call)
    (accepted : ∀ message, call = .handle message → message.rejection? c.pieces = none) :
    Unhindered c call [] :=
  ⟨accepted, by simp, by simp⟩

theorem Unhindered.concat (unhindered : Unhindered c call offers) {offer : Offer}
    (unasked : offer.asks = false) (smooth : offer.failsEarly = false) :
    Unhindered c call (offers ++ [offer]) where
  accepted := unhindered.accepted
  unasked := List.forall_mem_append.mpr
    ⟨unhindered.unasked, List.forall_mem_singleton.mpr unasked⟩
  smooth := List.forall_mem_append.mpr
    ⟨unhindered.smooth, List.forall_mem_singleton.mpr smooth⟩

theorem Reviewed.concat (reviewed : Reviewed c call held offers c') {offer : Offer}
    (unasked : offer.asks = false) (smooth : offer.failsEarly = false)
    (other : offer.delivers = false) : Reviewed c call held (offers ++ [offer]) c' where
  toUnhindered := reviewed.toUnhindered.concat unasked smooth
  interest := by
    rw [heldAtReview_concat other]
    exact reviewed.interest

/-- The call fails with the offer that is made last. -/
theorem Stands.fail (unasked : ∀ offer ∈ offers, offer.asks = false) {offer : Offer}
    (asksNothing : offer.asks = false) (fails : offer.failsEarly = true) (fault : PeerFault) :
    Stands c call held (offers ++ [offer]) (c', .fail fault) := by
  apply Stands.failed
  · exact List.forall_mem_append.mpr ⟨unasked, List.forall_mem_singleton.mpr asksNothing⟩
  · exact ⟨offer, by simp, fails⟩

/-- Once the interest is settled, a request is made if the call considers one and it is
allowed. -/
theorem Reviewed.afterInterest (reviewed : Reviewed c call held offers c')
    (announced : Announced c offers c') :
    Stands c call held offers (c', c'.afterInterest (heldLast held offers) call.considers) := by
  unfold Conversation.afterInterest
  by_cases considers : call.considers = true
  · rw [if_pos considers, considerRequest_eq]
    by_cases may : c'.mayRequest (heldLast held offers) = true
    · rw [if_pos may]
      exact .asking reviewed announced considers may
    · rw [if_neg may]
      exact .settled reviewed announced fun _ => by simpa using may
  · rw [if_neg considers]
    exact .settled reviewed announced fun does => absurd does considers

/-- Interest is recomputed against what we hold at that moment. -/
theorem Unhindered.review (unhindered : Unhindered c call offers) (held : Bitfield)
    (c' : Conversation) (silent : (c.emitted offers).filterMap Emission.outbound? = [])
    (reviews : call.reviews = true)
    (now : heldAtReview held offers = heldLast held offers)
    (unchanged : c'.standing.amInterested = c.standing.amInterested) :
    Stands c call held offers (c'.reviewInterest (heldLast held offers) call.considers) := by
  unfold reviewInterest
  dsimp only
  split
  · rename_i same
    have reviewed : Reviewed c call held offers c' :=
      ⟨unhindered, by rw [if_pos reviews, now, same]⟩
    exact reviewed.afterInterest (by rw [Announced, silent, if_pos unchanged])
  · rename_i differs
    rw [unchanged] at differs
    exact .announcing ⟨unhindered, by rw [if_pos reviews, now]⟩ reviews differs silent

/-- Before anything is offered, the interest is what it was. -/
theorem Unhindered.reviewed_nil (unhindered : Unhindered c call []) (held : Bitfield)
    (c' : Conversation) (passes : call.reviews = false)
    (unchanged : c'.standing.amInterested = c.standing.amInterested) :
    Reviewed c call held [] c' ∧ Announced c [] c' := by
  refine ⟨⟨unhindered, ?_⟩, ?_⟩
  · rw [passes]
    exact unchanged
  · rw [Announced, if_pos unchanged]
    rfl

/-- The first step of a message that is not rejected. -/
theorem stands_receive {message : Message} (sized : c.Sized)
    (verdict : message.rejection? c.pieces = none) (now : Nat) :
    Stands c (.handle message) held [] (c.receive held now message) := by
  have unhindered : Unhindered c (.handle message) [] := by
    refine unhindered_nil c _ ?_
    intro other same
    cases same
    exact verdict
  have goesOn : (c.receive held now message).2.Succeeds := (receive_of_accepted sized verdict).1
  have reviewing : message.prompts = true → ∀ {c' : Conversation},
      c'.standing.amInterested = c.standing.amInterested →
      Stands c (.handle message) held [] (c'.reviewInterest held true) := by
    intro prompts c' unchanged
    have stands := unhindered.review held c' rfl prompts rfl unchanged
    rw [show (Call.handle message).considers = true from prompts] at stands
    exact stands
  have passing : message.prompts = false → ∀ {c' : Conversation},
      c'.standing.amInterested = c.standing.amInterested →
      Stands c (.handle message) held [] (c', .ok) := by
    intro passes c' unchanged
    obtain ⟨reviewed, announced⟩ := unhindered.reviewed_nil held c' passes unchanged
    exact .settled reviewed announced fun considers => absurd considers (by simpa [Call.considers])
  have failing : ∀ fault : PeerFault, ¬ (Progress.fail fault).Succeeds := by
    rintro fault (done | ⟨errand, handing⟩)
    · cases done
    · cases handing
  cases message with
  | havePiece index =>
      unfold receive at goesOn ⊢
      dsimp only at goesOn ⊢
      split
      · rename_i fault fails
        rw [fails] at goesOn
        exact absurd goesOn (failing fault)
      · exact reviewing rfl rfl
  | bitfield bits =>
      unfold receive at goesOn ⊢
      dsimp only at goesOn ⊢
      split
      · rename_i fault fails
        rw [fails] at goesOn
        exact absurd goesOn (failing fault)
      · exact reviewing rfl rfl
  | unchoke => exact reviewing rfl rfl
  | unknown id payload => contradiction
  | piece block => exact .delivering rfl
  | cancel ref =>
      obtain ⟨reviewed, announced⟩ := unhindered.reviewed_nil held c rfl rfl
      exact .retracting reviewed announced rfl
  | _ => exact passing rfl rfl

/-- The first step of a call. -/
theorem stands_begin (sized : c.Sized) (now : Nat) :
    Stands c call held [] (c.begin held now call) := by
  cases call with
  | handle message =>
      cases verdict : message.rejection? c.pieces with
      | some fault =>
          rw [begin, receive_of_rejected sized verdict]
          exact .rejected rfl verdict
      | none => exact stands_receive sized verdict now
  | checkInterested =>
      exact (unhindered_nil c .checkInterested nofun).review held c rfl rfl rfl rfl
  | tryRequest =>
      obtain ⟨reviewed, announced⟩ :=
        (unhindered_nil c .tryRequest nofun).reviewed_nil held c rfl rfl
      exact reviewed.afterInterest announced
  | recordKeepAlive =>
      obtain ⟨reviewed, announced⟩ :=
        (unhindered_nil c .recordKeepAlive nofun).reviewed_nil held (c.recordKeepAlive now) rfl rfl
      exact .settled reviewed announced nofun

/-- What an offer adds to the messages on their way out. -/
theorem outbound_concat (c : Conversation) (offers : List Offer) (offer : Offer) :
    (c.emitted (offers ++ [offer])).filterMap Emission.outbound? =
      (c.emitted offers).filterMap Emission.outbound? ++
        ((offer.emission? c).bind Emission.outbound?).toList := by
  rw [emitted_concat, List.filterMap_append]
  cases offer.emission? c with
  | none => rfl
  | some emission => cases emission <;> rfl

theorem Announced.concat (announced : Announced c offers c') {offer : Offer}
    (silent : (offer.emission? c).bind Emission.outbound? = none) :
    Announced c (offers ++ [offer]) c' := by
  rw [Announced, outbound_concat, silent, announced]
  exact List.append_nil _

/-- Every further step of a call. -/
theorem Stands.goOn {errand : Errand} (stands : Stands c call held offers (c', .handing errand))
    (result : HandOver) (held' : Bitfield) :
    Stands c call held (offers ++ [⟨errand, result, held'⟩])
      (c'.resume held' errand result) := by
  cases stands with
  | @delivering block handles =>
      subst handles
      cases result with
      | accepted =>
          have unhindered : Unhindered c (.handle (.piece block))
              [⟨.deliver block, .accepted, held'⟩] := by
            refine (unhindered_nil c _ ?_).concat rfl rfl
            intro message same
            cases same
            rfl
          exact unhindered.review held c rfl rfl rfl rfl
      | closed => exact .fail (by simp) rfl rfl _
      | expired => exact .fail (by simp) rfl rfl _
  | retracting reviewed announced passes =>
      cases result with
      | accepted =>
          refine .settled (reviewed.concat rfl rfl rfl) (announced.concat rfl) ?_
          intro considers
          rw [passes] at considers
          contradiction
      | closed => exact .fail reviewed.unasked rfl rfl _
      | expired => exact .retracting (reviewed.concat rfl rfl rfl) (announced.concat rfl) passes
  | announcing reviewed reviews changed silent =>
      cases result with
      | accepted =>
          have announced : Announced c (offers ++
              [⟨.announce c'.standing.amInterested call.considers, .accepted, held'⟩]) c' := by
            rw [Announced, outbound_concat, silent, if_neg changed]
            rfl
          have settled := (reviewed.concat rfl rfl rfl).afterInterest announced
          rw [heldLast_concat] at settled
          exact settled
      | closed => exact .fail reviewed.unasked rfl rfl _
      | expired =>
          refine .announcing (reviewed.concat rfl rfl rfl) reviews changed ?_
          rw [outbound_concat, silent]
          rfl
  | asking reviewed announced considers may =>
      have asked : Stands c call held
          (offers ++ [⟨.request c'.standing.remote, result, held'⟩])
          (c', .done result.afterRequest) := .asked reviewed announced considers may
      cases result with
      | _ => exact asked

/-- A call is nowhere else than where it can stand. -/
theorem Answers.stands {stand : Conversation × Progress} (sized : c.Sized)
    (answers : Answers c call held offers stand) : Stands c call held offers stand := by
  induction answers with
  | start now => exact stands_begin sized now
  | goOn result held' before ih => exact ih.goOn result held'

end Steps

/-! ### What stays -/

section Kept

variable {c c' : Conversation} {call : Call} {held : Bitfield} {offers : List Offer}
  {stand : Conversation × Progress}

/-- A call changes what is known, and nothing else of the connection. -/
theorem Answers.same_connection (answers : Answers c call held offers stand) :
    ∃ standing, stand.1 = { c with standing } := by
  induction answers with
  | start now =>
      cases call with
      | handle message => exact c.receive_fst held now message
      | checkInterested =>
          obtain ⟨amInterested, same⟩ := c.reviewInterest_fst held false
          exact ⟨_, same⟩
      | tryRequest => exact ⟨c.standing, rfl⟩
      | recordKeepAlive => exact ⟨_, rfl⟩
  | @goOn offers c' errand result held' before ih =>
      obtain ⟨standing, same⟩ := ih
      obtain ⟨amInterested, next⟩ := c'.resume_fst held' errand result
      refine ⟨{ c'.standing with amInterested }, ?_⟩
      rw [next, show c' = { c with standing } from same]

/-- The handling of a message is a call like any other. -/
theorem Answers.underway {message : Message}
    (answers : c.Answers (.handle message) held offers stand) : c.Underway message stand := by
  induction answers with
  | start now => exact .start held now
  | goOn result held' before ih => exact .goOn held' result ih

/-- A rejected message makes nothing known. -/
theorem hear_of_rejected {standing : Standing} {message : Message} {fault : PeerFault}
    (rejected : message.rejection? standing.remote.pieces = some fault) :
    standing.hear message = standing := by
  cases message with
  | havePiece index =>
      simp only [Message.rejection?, Option.ite_none_right_eq_some] at rejected
      have outside : standing.remote.set index.toNat =
          .error (.pieceOutOfRange index.toNat standing.remote.size) := if_pos rejected.1
      simp only [Standing.hear, outside]
  | bitfield bits =>
      unfold Message.rejection? at rejected
      dsimp only at rejected
      split at rejected
      · rename_i bad
        simp only [Standing.hear, bad]
      · contradiction
  | unknown id payload => rfl
  | _ => contradiction

/-- Our own interest aside, a call leaves what it makes known. -/
theorem Answers.about (sized : c.Sized) (answers : Answers c call held offers stand) :
    stand.1.standing.aboutRemote = (call.hear c.standing).aboutRemote := by
  induction answers with
  | start now =>
      cases call with
      | handle message =>
          cases verdict : message.rejection? c.pieces with
          | none => exact (receive_of_accepted sized verdict).2.about
          | some fault =>
              rw [begin, receive_of_rejected sized verdict, Call.hear,
                hear_of_rejected (by rw [sized]; exact verdict)]
      | checkInterested =>
          obtain ⟨amInterested, same⟩ := c.reviewInterest_fst held false
          rw [begin, same]
          rfl
      | tryRequest => rfl
      | recordKeepAlive => rfl
  | @goOn offers c' errand result held' before ih =>
      obtain ⟨amInterested, next⟩ := c'.resume_fst held' errand result
      rw [next]
      exact ih

theorem canonical_hear {standing : Standing} (canonical : standing.remote.Canonical)
    (message : Message) : (standing.hear message).remote.Canonical := by
  cases message with
  | havePiece index =>
      unfold Standing.hear
      dsimp only
      split
      · exact (canonical.set ‹_›).1
      · exact canonical
  | bitfield bits =>
      unfold Standing.hear
      dsimp only
      split
      · obtain ⟨same, canonical'⟩ := Bitfield.ofBytes?_eq_ok_iff.mp ‹_›
        rw [same]
        exact canonical'
      · exact canonical
  | _ => exact canonical

/-- What calls have made of a conversation, whatever became of each of them. -/
inductive Reached (c : Conversation) : Conversation → Prop where
  | start : Reached c c
  | next {c' c'' : Conversation} {call : Call} {held : Bitfield} {offers : List Offer}
      {progress : Progress} (before : Reached c c')
      (answers : c'.Answers call held offers (c'', progress)) : Reached c c''

/-- The remote's bitfield is one of the swarm's. -/
structure Fit (c : Conversation) : Prop where
  sized : c.Sized
  canonical : c.standing.remote.Canonical

theorem fit_start (addr : String) (pieces : UInt64) (channel : Nat) :
    (start addr pieces channel).Fit :=
  ⟨rfl, Bitfield.canonical_empty pieces⟩

theorem Answers.fit (fit : c.Fit) (answers : Answers c call held offers stand) : stand.1.Fit := by
  obtain ⟨standing, same⟩ := answers.same_connection
  have about := congrArg Standing.remote (answers.about fit.sized)
  have remote : stand.1.standing.remote = (call.hear c.standing).remote := about
  have pieces : stand.1.pieces = c.pieces := by rw [same]
  constructor
  · unfold Sized
    rw [remote, pieces]
    cases call with
    | handle message => exact (Standing.pieces_hear c.standing message).trans fit.sized
    | _ => exact fit.sized
  · rw [remote]
    cases call with
    | handle message => exact canonical_hear fit.canonical message
    | _ => exact fit.canonical

theorem Reached.same_connection (reached : Reached c c') :
    ∃ standing, c' = { c with standing } := by
  induction reached with
  | start => exact ⟨c.standing, rfl⟩
  | @next c' c'' call held offers progress before answers ih =>
      obtain ⟨standing, rfl⟩ := ih
      obtain ⟨standing', same⟩ := answers.same_connection
      exact ⟨standing', same⟩

theorem Reached.fit (fit : c.Fit) (reached : Reached c c') : c'.Fit := by
  induction reached with
  | start => exact fit
  | next before answers ih => exact answers.fit ih

end Kept

end Conversation

/-! ### At a desk -/

namespace Desk

open Conversation

theorem attempt_conversation (desk : Desk) (errand : Errand) :
    (desk.attempt errand).2.conversation = desk.conversation := by
  cases errand <;> rfl

/-- A call at a desk. -/
def call (desk : Desk) (patience : Nat) : Call → Desk × CallResult
  | .handle message => desk.handle patience message
  | .checkInterested => desk.checkInterested patience
  | .tryRequest => desk.tryRequest patience
  | .recordKeepAlive => (desk.recordKeepAlive, .returned (.ok ()))

/-- What an attempt hands over. -/
def sent (desk : Desk) (errand : Errand) : List Emission :=
  if (desk.attempt errand).1 = .accepted then [errand.emission desk.conversation] else []

/-- The messages and piece requests that have left a desk since an earlier moment. -/
structure Sends (desk desk' : Desk) (emissions : List Emission) : Prop where
  outbound : desk'.outbound.items = desk.outbound.items ++ emissions.filterMap Emission.outbound?
  requests : desk'.requests.items = desk.requests.items ++ emissions.filterMap Emission.request?

section Calls

variable {desk desk' desk'' : Desk} {emissions : List Emission} {patience : Nat}
  {outcome : Except Failure Unit}

theorem sends_attempt (desk : Desk) (errand : Errand) :
    Sends desk (desk.attempt errand).2 (desk.sent errand) := by
  unfold sent
  cases errand with
  | announce interested thenRequest =>
      have items := desk.outbound.items_offer (.ofInterest interested)
      by_cases accepted : (desk.outbound.offer (.ofInterest interested)).1 = .accepted <;>
        constructor <;>
        simp_all [attempt, Errand.emission, Emission.outbound?, Emission.request?]
  | request remote =>
      have items := desk.requests.items_offer (desk.conversation.pieceRequest remote)
      by_cases accepted : (desk.requests.offer (desk.conversation.pieceRequest remote)).1 =
          .accepted <;>
        constructor <;>
        simp_all [attempt, Errand.emission, Emission.outbound?, Emission.request?]
  | cancel ref =>
      by_cases accepted : (desk.cancels.offer ref).1 = .accepted <;> constructor <;>
        simp [attempt, accepted, Errand.emission, Emission.outbound?, Emission.request?]
  | deliver block =>
      by_cases accepted :
          (desk.deliveries.offer (.block desk.conversation.addr block)).1 = .accepted <;>
        constructor <;>
        simp [attempt, accepted, Errand.emission, Emission.outbound?, Emission.request?]

theorem Sends.trans {more : List Emission} (first : Sends desk desk' emissions)
    (second : Sends desk' desk'' more) : Sends desk desk'' (emissions ++ more) := by
  constructor
  · rw [second.outbound, first.outbound, List.filterMap_append, List.append_assoc]
  · rw [second.requests, first.requests, List.filterMap_append, List.append_assoc]

/-- Where a call stands that is made at a desk: what we hold stays what it is meanwhile. -/
structure Serves (start desk : Desk) (call : Call) (progress : Progress) (offers : List Offer) :
    Prop where
  answers : start.conversation.Answers call start.field offers (desk.conversation, progress)
  field : desk.field = start.field
  held : ∀ offer ∈ offers, offer.held = start.field
  sends : Sends start desk (start.conversation.emitted offers)

/-- An attempt that ends goes on with its result. -/
theorem Serves.resume {start : Desk} {call : Call} {errand : Errand} {offers : List Offer}
    (serves : Serves start desk call (.handing errand) offers) (now : Nat) {result : HandOver}
    (meant : result = .accepted ↔ (desk.attempt errand).1 = .accepted) :
    let tried : Desk := { (desk.attempt errand).2 with now }
    Serves start (tried.resume errand result).1 call (tried.resume errand result).2
      (offers ++ [⟨errand, result, start.field⟩]) := by
  intro tried
  have same : tried.conversation = desk.conversation := desk.attempt_conversation errand
  have field : tried.field = start.field := by
    rw [← serves.field]
    cases errand <;> rfl
  refine ⟨?_, field, ?_, ?_⟩
  · have next := Answers.goOn result start.field serves.answers
    rw [← same, ← field] at next
    rw [← field]
    exact next
  · exact List.forall_mem_append.mpr ⟨serves.held, List.forall_mem_singleton.mpr rfl⟩
  · obtain ⟨standing, connection⟩ := serves.answers.same_connection
    have emission : errand.emission desk.conversation = errand.emission start.conversation := by
      rw [show desk.conversation = _ from connection]
      cases errand <;> rfl
    have emitted : start.conversation.emitted (offers ++ [⟨errand, result, start.field⟩]) =
        start.conversation.emitted offers ++ desk.sent errand := by
      rw [emitted_concat, Offer.emission?, sent, emission]
      congr 1
      by_cases accepted : result = .accepted
      · rw [if_pos accepted, if_pos (meant.mp accepted)]
        rfl
      · rw [if_neg accepted, if_neg (fun other => accepted (meant.mpr other))]
        rfl
    have sends := serves.sends.trans (desk.sends_attempt errand)
    rw [emitted]
    exact ⟨sends.outbound, sends.requests⟩

/-- A call that returns stands at its end. -/
theorem Serves.carry {start : Desk} {call : Call} {giveUp hops : Nat} {progress : Progress}
    {offers : List Offer} (serves : Serves start desk call progress offers)
    (carried : Desk.carry giveUp hops desk progress = (desk', .returned outcome)) :
    ∃ offers', Serves start desk' call (.done outcome) offers' := by
  induction hops generalizing desk progress offers with
  | zero =>
      cases progress with
      | done outcome' =>
          cases carried
          exact ⟨offers, serves⟩
      | handing errand => cases carried
  | succ hops ih =>
      cases progress with
      | done outcome' =>
          cases carried
          exact ⟨offers, serves⟩
      | handing errand =>
          unfold Desk.carry at carried
          dsimp only at carried
          split at carried
          · rename_i accepted
            exact ih (serves.resume _ (by simp [accepted])) carried
          · rename_i closed
            exact ih (serves.resume _ (by simp [closed])) carried
          · rename_i full
            split at carried
            · exact ih (serves.resume _ (by simp [full])) carried
            · cases carried

/-- Every call that returns at a desk is one of the ways to answer it, and sends exactly what
was accepted on that way. -/
theorem serves_call {call : Call}
    (called : desk.call patience call = (desk', .returned outcome)) :
    ∃ offers, Serves desk desk' call (.done outcome) offers := by
  have begun : ∀ now, Serves desk
      { desk with conversation := (desk.conversation.begin desk.field now call).1 } call
      (desk.conversation.begin desk.field now call).2 [] := fun now =>
    ⟨.start now, rfl, by simp, ⟨(List.append_nil _).symm, (List.append_nil _).symm⟩⟩
  cases call with
  | handle message =>
      simp only [Desk.call, handle, waitFor] at called
      split at called
      · rename_i waited
        cases called
        obtain ⟨offers, serves⟩ := (begun desk.now).carry waited
        exact ⟨offers, serves.answers, serves.field, serves.held,
          ⟨serves.sends.outbound, serves.sends.requests⟩⟩
      · cases called
  | checkInterested => exact (begun desk.now).carry called
  | tryRequest => exact (begun desk.now).carry called
  | recordKeepAlive =>
      cases called
      have served := begun desk.now
      exact ⟨[], served.answers, rfl, served.held,
        ⟨served.sends.outbound, served.sends.requests⟩⟩

/-- A call that returns has handled its message to the end. -/
theorem underway_of_handle {message : Message}
    (handled : desk.handle patience message = (desk', .returned outcome)) :
    desk.conversation.Underway message (desk'.conversation, .done outcome) := by
  have called : desk.call patience (.handle message) = (desk', .returned outcome) := handled
  obtain ⟨offers, serves⟩ := serves_call called
  exact serves.answers.underway

end Calls

end Desk

end PeerWire

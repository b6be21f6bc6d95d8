import Mathlib.Tactic.Common
import PeerWire.Conversation

/-!
What a message does when every hand-over is accepted. A message is rejected outright, and
then changes nothing, or it is handled to its end: `Message.rejection?` decides which by
the number of pieces alone. `Handling` follows the handling of one message from hand-over
to hand-over, and `Handled` that of one message after the other, with everything that was
handed over on the way. Between two looks at it, what we hold may have changed.
-/

namespace PeerWire

/-- Why a message that could be read is not acted on, in a swarm of so many pieces. -/
def Message.rejection? (pieces : UInt64) : Message → Option PeerFault
  | .havePiece index =>
      if pieces.toNat ≤ index.toNat then some (.pieceOutOfRange index.toNat pieces.toNat)
      else none
  | .bitfield bits =>
      match Bitfield.ofBytes? pieces bits with
      | .error fault => some fault
      | .ok _ => none
  | .unknown id _ => some (.unknownMessage id)
  | _ => none

/-- What the reader hands over. -/
inductive Emission where
  | delivery (delivery : Delivery)
  | request (request : PieceRequest)
  /-- A message on its way out. -/
  | outbound (message : Message)
  | cancel (ref : BlockRef)
deriving DecidableEq, Repr

/-- What an errand hands over. -/
def Errand.emission (c : Conversation) : Errand → Emission
  | .cancel ref => .cancel ref
  | .deliver block => .delivery (.block c.addr block)
  | .announce interested _ => .outbound (.ofInterest interested)
  | .request remote => .request (c.pieceRequest remote)

/-- The handling has not failed. -/
def Progress.Succeeds (progress : Progress) : Prop :=
  progress = .ok ∨ ∃ errand, progress = .handing errand

/-- What the flags and the remote's bitfield say once a message was heard. -/
def Standing.hear (standing : Standing) : Message → Standing
  | .choke => { standing with peerChoking := true }
  | .unchoke => { standing with peerChoking := false }
  | .interested => { standing with peerInterested := true }
  | .notInterested => { standing with peerInterested := false }
  | .havePiece index =>
      match standing.remote.set index.toNat with
      | .ok remote => { standing with remote }
      | .error _ => standing
  | .bitfield bits =>
      match Bitfield.ofBytes? standing.remote.pieces bits with
      | .ok remote => { standing with remote }
      | .error _ => standing
  | _ => standing

/-- A standing without our own interest, which depends on what we hold, and without the
time of the last keep-alive. -/
def Standing.aboutRemote (standing : Standing) : Standing :=
  { standing with amInterested := false, lastKeepAlive := none }

theorem Standing.hear_aboutRemote (standing : Standing) (message : Message) :
    (standing.hear message).aboutRemote = standing.aboutRemote.hear message := by
  cases message with
  | havePiece index =>
      simp only [hear, aboutRemote]
      cases standing.remote.set index.toNat <;> rfl
  | bitfield bits =>
      simp only [hear, aboutRemote]
      cases Bitfield.ofBytes? standing.remote.pieces bits <;> rfl
  | _ => rfl

theorem Bitfield.pieces_of_set {b b' : Bitfield} {index : Nat} (added : b.set index = .ok b') :
    b'.pieces = b.pieces := by
  unfold Bitfield.set at added
  split at added
  · contradiction
  · cases added
    rfl

theorem Bitfield.pieces_of_ofBytes? {pieces : UInt64} {bytes : List UInt8} {b : Bitfield}
    (read : ofBytes? pieces bytes = .ok b) : b.pieces = pieces := by
  unfold Bitfield.ofBytes? at read
  dsimp only at read
  split at read
  · contradiction
  · split at read
    · contradiction
    · cases read
      rfl

theorem Standing.pieces_hear (standing : Standing) (message : Message) :
    (standing.hear message).remote.pieces = standing.remote.pieces := by
  cases message with
  | havePiece index =>
      unfold hear
      dsimp only
      split
      · exact Bitfield.pieces_of_set ‹_›
      · rfl
  | bitfield bits =>
      unfold hear
      dsimp only
      split
      · exact Bitfield.pieces_of_ofBytes? ‹_›
      · rfl
  | _ => rfl

namespace Conversation

/-- The remote's bitfield is of the swarm's size. -/
def Sized (c : Conversation) : Prop :=
  c.standing.remote.pieces = c.pieces

/-- A conversation that goes on with this standing, up to our own interest and the time
of the last keep-alive. -/
structure Tells (c : Conversation) (standing : Standing) (c' : Conversation) : Prop where
  pieces : c'.pieces = c.pieces
  about : c'.standing.aboutRemote = standing.aboutRemote

section Interest

variable (c : Conversation) (field : Bitfield) (thenRequest : Bool)

theorem afterInterest_succeeds : (c.afterInterest field thenRequest).Succeeds := by
  unfold afterInterest considerRequest
  split
  · split
    · exact .inl rfl
    · split
      · exact .inl rfl
      · exact .inr ⟨_, rfl⟩
  · exact .inl rfl

theorem reviewInterest_succeeds : (c.reviewInterest field thenRequest).2.Succeeds := by
  unfold reviewInterest
  dsimp only
  split
  · exact c.afterInterest_succeeds field thenRequest
  · exact .inr ⟨_, rfl⟩

/-- Only our own interest is reviewed. -/
theorem reviewInterest_fst : ∃ amInterested, (c.reviewInterest field thenRequest).1 =
    { c with standing := { c.standing with amInterested } } := by
  unfold reviewInterest
  dsimp only
  split
  · exact ⟨c.standing.amInterested, rfl⟩
  · exact ⟨_, rfl⟩

end Interest

/-! ### One message -/

section Receive

variable {c : Conversation} {field : Bitfield} {now : Nat} {message : Message}

/-- A rejected message changes nothing, and fails with the reason for the rejection. -/
theorem receive_of_rejected {fault : PeerFault} (sized : c.Sized)
    (rejected : message.rejection? c.pieces = some fault) :
    c.receive field now message = (c, .fail fault) := by
  cases message with
  | havePiece index =>
      simp only [Message.rejection?, Option.ite_none_right_eq_some, Option.some.injEq] at rejected
      obtain ⟨beyond, rfl⟩ := rejected
      have size : c.standing.remote.size = c.pieces.toNat := by rw [Bitfield.size, sized]
      have outside : c.standing.remote.set index.toNat =
          .error (.pieceOutOfRange index.toNat c.pieces.toNat) := by
        rw [Bitfield.set, if_pos (by omega), size]
      simp only [receive, outside]
  | bitfield bits =>
      unfold Message.rejection? at rejected
      dsimp only at rejected
      split at rejected
      · rename_i bad
        cases rejected
        simp only [receive, bad]
      · contradiction
  | unknown id payload =>
      cases rejected
      rfl
  | _ => contradiction

/-- Any other message is acted on, and what is known of the remote is what it tells. -/
theorem receive_of_accepted (sized : c.Sized) (accepted : message.rejection? c.pieces = none) :
    (c.receive field now message).2.Succeeds ∧
      c.Tells (c.standing.hear message) (c.receive field now message).1 := by
  have reviewed : ∀ standing : Standing,
      (({ c with standing } : Conversation).reviewInterest field true).2.Succeeds ∧
        c.Tells standing (({ c with standing } : Conversation).reviewInterest field true).1 := by
    intro standing
    obtain ⟨amInterested, same⟩ := reviewInterest_fst { c with standing } field true
    exact ⟨reviewInterest_succeeds _ field true, by rw [same]; exact ⟨rfl, rfl⟩⟩
  cases message with
  | havePiece index =>
      have inside : index.toNat < c.standing.remote.size := by
        simp only [Message.rejection?, ite_eq_right_iff, reduceCtorEq, imp_false] at accepted
        rw [Bitfield.size, sized]
        omega
      have added : ∃ remote, c.standing.remote.set index.toNat = .ok remote := by
        rw [Bitfield.set, if_neg (by omega)]
        exact ⟨_, rfl⟩
      obtain ⟨remote, added⟩ := added
      simp only [receive, Standing.hear, added]
      exact reviewed _
  | bitfield bits =>
      unfold Message.rejection? at accepted
      dsimp only at accepted
      split at accepted
      · contradiction
      · rename_i remote read
        have heard : Bitfield.ofBytes? c.standing.remote.pieces bits = .ok remote := by
          rw [sized]
          exact read
        simp only [receive, Standing.hear, read, heard]
        exact reviewed _
  | unchoke => exact reviewed _
  | unknown id payload => contradiction
  | piece block => exact ⟨.inr ⟨_, rfl⟩, rfl, rfl⟩
  | cancel ref => exact ⟨.inr ⟨_, rfl⟩, rfl, rfl⟩
  | _ => exact ⟨.inl rfl, rfl, rfl⟩

/-- A handling goes on after every hand-over that is accepted. -/
theorem resume_accepted (c : Conversation) (field : Bitfield) (errand : Errand) :
    (c.resume field errand .accepted).2.Succeeds ∧
      c.Tells c.standing (c.resume field errand .accepted).1 := by
  cases errand with
  | cancel ref => exact ⟨.inl rfl, rfl, rfl⟩
  | deliver block =>
      obtain ⟨amInterested, same⟩ := c.reviewInterest_fst field true
      exact ⟨c.reviewInterest_succeeds field true, by
        rw [resume, same]
        exact ⟨rfl, rfl⟩⟩
  | announce interested thenRequest => exact ⟨c.afterInterest_succeeds field thenRequest, rfl, rfl⟩
  | request remote => exact ⟨.inl rfl, rfl, rfl⟩

/-- A hand-over changes our own interest at most, whatever becomes of it. -/
theorem resume_fst (c : Conversation) (field : Bitfield) (errand : Errand) (result : HandOver) :
    ∃ amInterested, (c.resume field errand result).1 =
      { c with standing := { c.standing with amInterested } } := by
  have same : ∃ amInterested, c = { c with standing := { c.standing with amInterested } } :=
    ⟨c.standing.amInterested, rfl⟩
  cases errand with
  | deliver block =>
      cases result with
      | accepted => exact c.reviewInterest_fst field true
      | _ => exact same
  | _ => cases result <;> exact same

/-- A message changes what is known of the connection, and nothing else of it. -/
theorem receive_fst (c : Conversation) (field : Bitfield) (now : Nat) (message : Message) :
    ∃ standing, (c.receive field now message).1 = { c with standing } := by
  have reviewed : ∀ standing : Standing, ∃ standing',
      (({ c with standing } : Conversation).reviewInterest field true).1 =
        { c with standing := standing' } := by
    intro standing
    obtain ⟨amInterested, same⟩ := reviewInterest_fst { c with standing } field true
    exact ⟨_, same⟩
  cases message with
  | havePiece index =>
      unfold receive
      dsimp only
      split
      · exact ⟨c.standing, rfl⟩
      · exact reviewed _
  | bitfield bits =>
      unfold receive
      dsimp only
      split
      · exact ⟨c.standing, rfl⟩
      · exact reviewed _
  | unchoke => exact reviewed _
  | _ => exact ⟨_, rfl⟩

end Receive

/-- How far the handling of a message has come, every hand-over accepted, and what was
handed over. -/
inductive Handling (c : Conversation) (message : Message) :
    Conversation × Progress → List Emission → Prop where
  | start (field : Bitfield) (now : Nat) : Handling c message (c.receive field now message) []
  | handOver {c' : Conversation} {errand : Errand} {handed : List Emission} (field : Bitfield)
      (before : Handling c message (c', .handing errand) handed) :
      Handling c message (c'.resume field errand .accepted) (handed ++ [errand.emission c'])

theorem Handling.succeeds {c : Conversation} {message : Message}
    {stand : Conversation × Progress} {handed : List Emission} (sized : c.Sized)
    (accepted : message.rejection? c.pieces = none) (handling : Handling c message stand handed) :
    stand.2.Succeeds ∧ c.Tells (c.standing.hear message) stand.1 := by
  induction handling with
  | start field now => exact receive_of_accepted sized accepted
  | @handOver c' errand handed field before ih =>
      obtain ⟨succeeds, tells⟩ := c'.resume_accepted field errand
      exact ⟨succeeds, tells.pieces.trans ih.2.pieces, tells.about.trans ih.2.about⟩

/-! ### Many messages -/

/-- Messages handled one after the other, each to its end and none of them rejected, and
everything that was handed over. -/
inductive Handled (c : Conversation) : List Message → Conversation → List Emission → Prop where
  | none : Handled c [] c []
  | next {messages : List Message} {message : Message} {c' c'' : Conversation}
      {earlier handed : List Emission} (before : Handled c messages c' earlier)
      (accepted : message.rejection? c.pieces = none)
      (handling : Handling c' message (c'', .ok) handed) :
      Handled c (messages ++ [message]) c'' (earlier ++ handed)

/-- What is known of the remote in the end is what the messages told, one by one. -/
theorem Handled.tells {c c' : Conversation} {messages : List Message} {handed : List Emission}
    (sized : c.Sized) (handled : Handled c messages c' handed) :
    c'.pieces = c.pieces ∧ c'.Sized ∧
      c'.standing.aboutRemote = (messages.foldl Standing.hear c.standing).aboutRemote := by
  induction handled with
  | none => exact ⟨rfl, sized, rfl⟩
  | @next messages message c' c'' earlier handed before accepted handling ih =>
      obtain ⟨pieces, sized', about⟩ := ih
      obtain ⟨_, tells⟩ := handling.succeeds sized' (pieces ▸ accepted)
      have told := congrArg Standing.remote tells.about
      have remote : c''.standing.remote = (c'.standing.hear message).remote := told
      refine ⟨tells.pieces.trans pieces, ?_, ?_⟩
      · unfold Sized
        rw [remote, Standing.pieces_hear, tells.pieces]
        exact sized'
      · rw [List.foldl_append, tells.about, Standing.hear_aboutRemote, about]
        exact (Standing.hear_aboutRemote _ _).symm

end Conversation

end PeerWire

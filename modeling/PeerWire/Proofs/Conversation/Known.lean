import Mathlib.Data.List.DropRight
import PeerWire.Proofs.Bitfield
import PeerWire.Proofs.Conversation

/-!
What a run of messages makes known of a remote. The flags say what the last message on
their matter said; the remote's bitfield holds the last field that was sent whole, and every
piece that was announced after it. None of this depends on what we hold ourselves, nor on
whether a hand-over found room: `Underway` lets both be anything at every stage of the
handling of a message, and `Took` follows one message after the other, each handled to its
end without a failure.
-/

namespace PeerWire

/-! ### What a message says -/

/-- Whether the remote chokes us, where the message says so. -/
def Message.chokes? : Message → Option Bool
  | .choke => some true
  | .unchoke => some false
  | _ => none

/-- Whether the remote is interested, where the message says so. -/
def Message.interest? : Message → Option Bool
  | .interested => some true
  | .notInterested => some false
  | _ => none

/-- All that the remote holds, where the message says so. -/
def Message.field? : Message → Option (List UInt8)
  | .bitfield bits => some bits
  | _ => none

/-- What the remote asks of us tells nothing about it. -/
def Message.isPassedOver : Message → Bool
  | .request _ | .cancel _ | .port _ => true
  | _ => false

/-- What was said last on a matter. -/
def lastSaid {α : Type} (about : Message → Option α) (messages : List Message) : Option α :=
  (messages.filterMap about).getLast?

/-- The messages behind the last whole field, or all of them when there was none. -/
def sinceField (messages : List Message) : List Message :=
  messages.rtakeWhile (·.field?.isNone)

/-- The remote has told that it holds this piece: in the last whole field, or after it. -/
def ToldToHold (messages : List Message) (index : Nat) : Prop :=
  (∃ bits, lastSaid Message.field? messages = some bits ∧ packedBit bits index = true) ∨
    ∃ piece, .havePiece piece ∈ sinceField messages ∧ piece.toNat = index

section Said

variable (messages : List Message) {message : Message}

theorem lastSaid_concat {α : Type} (about : Message → Option α) (message : Message) :
    lastSaid about (messages ++ [message]) = (about message).or (lastSaid about messages) := by
  unfold lastSaid
  rw [List.filterMap_append]
  cases said : about message with
  | none => simp [said]
  | some word => simp [said]

/-- A whole field takes the place of everything told before. -/
theorem toldToHold_concat_field {bits : List UInt8} (whole : message.field? = some bits)
    (index : Nat) : ToldToHold (messages ++ [message]) index ↔ packedBit bits index = true := by
  unfold ToldToHold sinceField
  rw [lastSaid_concat, List.rtakeWhile_concat, whole]
  simp

/-- Any other message adds at most one piece. -/
theorem toldToHold_concat (partly : message.field? = none) (index : Nat) :
    ToldToHold (messages ++ [message]) index ↔
      ToldToHold messages index ∨ ∃ piece, message = .havePiece piece ∧ piece.toNat = index := by
  unfold ToldToHold sinceField
  rw [lastSaid_concat, List.rtakeWhile_concat, partly, Option.none_or, Option.isNone_none,
    if_pos rfl, or_assoc]
  simp only [List.mem_append, List.mem_singleton, or_and_right, exists_or, eq_comm]

end Said

/-! ### One message -/

namespace Standing

theorem eq_of_aboutRemote {known known' : Standing}
    (about : known'.aboutRemote = known.aboutRemote) :
    known'.amChoking = known.amChoking ∧ known'.peerChoking = known.peerChoking ∧
      known'.peerInterested = known.peerInterested ∧ known'.remote = known.remote := by
  simp only [aboutRemote, Standing.mk.injEq] at about
  exact ⟨about.1, about.2.2.1, about.2.2.2.1, about.2.2.2.2.1⟩

section Hear

variable (standing : Standing) (message : Message)

theorem peerChoking_hear :
    (standing.hear message).peerChoking = message.chokes?.getD standing.peerChoking := by
  unfold hear
  cases message <;> dsimp only <;> first | rfl | (split <;> rfl)

theorem peerInterested_hear :
    (standing.hear message).peerInterested = message.interest?.getD standing.peerInterested := by
  unfold hear
  cases message <;> dsimp only <;> first | rfl | (split <;> rfl)

theorem amChoking_hear : (standing.hear message).amChoking = standing.amChoking := by
  unfold hear
  cases message <;> dsimp only <;> first | rfl | (split <;> rfl)

end Hear

/-- A standing that agrees with the messages taken so far, in a swarm of so many pieces. -/
structure Agrees (pieces : UInt64) (messages : List Message) (known : Standing) : Prop where
  choking : known.peerChoking = (lastSaid Message.chokes? messages).getD true
  interest : known.peerInterested = (lastSaid Message.interest? messages).getD false
  ours : known.amChoking = true
  size : known.remote.pieces = pieces
  canonical : known.remote.Canonical
  holds : ∀ index, known.remote.has index = true ↔ ToldToHold messages index
  alive : known.lastKeepAlive.isSome = true ↔ .keepAlive ∈ messages

theorem agrees_nil (pieces : UInt64) :
    Agrees pieces [] ({ remote := .empty pieces } : Standing) where
  choking := rfl
  interest := rfl
  ours := rfl
  size := rfl
  canonical := Bitfield.canonical_empty pieces
  holds index := by simp [Bitfield.has_empty, ToldToHold, lastSaid, sinceField]
  alive := by simp

/-- The remote's bitfield after a message that is not rejected. -/
theorem Agrees.remote {pieces : UInt64} {messages : List Message} {known : Standing}
    (agrees : Agrees pieces messages known) {message : Message}
    (accepted : message.rejection? pieces = none) :
    (known.hear message).remote.pieces = pieces ∧ (known.hear message).remote.Canonical ∧
      ∀ index, (known.hear message).remote.has index = true ↔
        ToldToHold (messages ++ [message]) index := by
  have unchanged : message.field? = none → (∀ piece, message ≠ .havePiece piece) →
      (known.hear message).remote = known.remote →
      (known.hear message).remote.pieces = pieces ∧ (known.hear message).remote.Canonical ∧
        ∀ index, (known.hear message).remote.has index = true ↔
          ToldToHold (messages ++ [message]) index := by
    intro partly other same
    rw [same]
    refine ⟨agrees.size, agrees.canonical, fun index => ?_⟩
    rw [agrees.holds, toldToHold_concat messages partly]
    exact (or_iff_left (by rintro ⟨piece, named, _⟩; exact other piece named)).symm
  cases message with
  | havePiece piece =>
      have inside : piece.toNat < known.remote.size := by
        simp only [Message.rejection?, ite_eq_right_iff, reduceCtorEq, imp_false] at accepted
        rw [Bitfield.size, agrees.size]
        omega
      obtain ⟨remote, added⟩ : ∃ remote, known.remote.set piece.toNat = .ok remote :=
        ⟨_, Bitfield.set_eq_ok_iff.mpr ⟨inside, rfl⟩⟩
      obtain ⟨canonical, held⟩ := agrees.canonical.set added
      have heard : known.hear (.havePiece piece) = { known with remote } := by
        simp only [hear, added]
      rw [heard]
      refine ⟨(Bitfield.pieces_of_set added).trans agrees.size, canonical, fun index => ?_⟩
      rw [held, toldToHold_concat messages rfl, Bool.or_eq_true, decide_eq_true_eq, agrees.holds]
      simp [eq_comm]
  | bitfield bits =>
      obtain ⟨remote, read⟩ : ∃ remote, Bitfield.ofBytes? pieces bits = .ok remote := by
        unfold Message.rejection? at accepted
        dsimp only at accepted
        split at accepted
        · contradiction
        · exact ⟨_, ‹_›⟩
      have heard : known.hear (.bitfield bits) = { known with remote } := by
        simp only [hear, agrees.size, read]
      rw [heard]
      obtain ⟨rfl, canonical⟩ := Bitfield.ofBytes?_eq_ok_iff.mp read
      refine ⟨rfl, canonical, fun index => ?_⟩
      rw [canonical.has_eq_packedBit, toldToHold_concat_field messages rfl]
  | _ => exact unchanged rfl (by simp) rfl

/-- What is known after one more message that is not rejected, our own interest aside. -/
theorem Agrees.hear {pieces : UInt64} {messages : List Message} {known known' : Standing}
    (agrees : Agrees pieces messages known) {message : Message}
    (accepted : message.rejection? pieces = none)
    (about : known'.aboutRemote = (known.hear message).aboutRemote)
    (alive : known'.lastKeepAlive.isSome = true ↔
      known.lastKeepAlive.isSome = true ∨ message = .keepAlive) :
    Agrees pieces (messages ++ [message]) known' := by
  obtain ⟨ours, choking, interest, remote⟩ := eq_of_aboutRemote about
  obtain ⟨size, canonical, holds⟩ := agrees.remote accepted
  refine ⟨?_, ?_, ?_, remote ▸ size, remote ▸ canonical, remote ▸ holds, ?_⟩
  · rw [choking, peerChoking_hear, agrees.choking, lastSaid_concat]
    cases message.chokes? <;> rfl
  · rw [interest, peerInterested_hear, agrees.interest, lastSaid_concat]
    cases message.interest? <;> rfl
  · rw [ours, amChoking_hear, agrees.ours]
  · rw [alive, agrees.alive]
    simp [eq_comm]

end Standing

namespace Conversation

/-! ### Every way a message can be handled -/

/-- How far the handling of a message may have come, whatever we hold and whatever becomes
of each hand-over. -/
inductive Underway (c : Conversation) (message : Message) : Conversation × Progress → Prop where
  | start (field : Bitfield) (now : Nat) : Underway c message (c.receive field now message)
  | goOn {c' : Conversation} {errand : Errand} (field : Bitfield) (result : HandOver)
      (before : Underway c message (c', .handing errand)) :
      Underway c message (c'.resume field errand result)

/-- Messages taken one after the other, each handled to its end without a failure. -/
inductive Took (c : Conversation) : List Message → Conversation → Prop where
  | none : Took c [] c
  | next {messages : List Message} {message : Message} {c' c'' : Conversation}
      (before : Took c messages c') (handled : Underway c' message (c'', .ok)) :
      Took c (messages ++ [message]) c''

section Handling

variable {c : Conversation} {message : Message} {stand : Conversation × Progress}

/-- The time of the last keep-alive changes with a keep-alive only. -/
theorem lastKeepAlive_receive (c : Conversation) (field : Bitfield) (now : Nat)
    (message : Message) : (c.receive field now message).1.standing.lastKeepAlive =
      if message = .keepAlive then some now else c.standing.lastKeepAlive := by
  have reviewed : ∀ standing : Standing, (({ c with standing } : Conversation).reviewInterest
      field true).1.standing.lastKeepAlive = standing.lastKeepAlive := by
    intro standing
    obtain ⟨amInterested, same⟩ := reviewInterest_fst { c with standing } field true
    rw [same]
  cases message with
  | havePiece index =>
      unfold receive
      dsimp only
      split
      · rfl
      · exact reviewed _
  | bitfield bits =>
      unfold receive
      dsimp only
      split
      · rfl
      · exact reviewed _
  | unchoke => exact reviewed _
  | _ => rfl

/-- A rejected message gets nowhere. -/
theorem Underway.of_rejected {fault : PeerFault} (underway : Underway c message stand)
    (sized : c.Sized) (rejected : message.rejection? c.pieces = some fault) :
    stand = (c, .fail fault) := by
  induction underway with
  | start field now => exact receive_of_rejected sized rejected
  | goOn field result before ih => cases ih

/-- From its start on, a message that is not rejected has told what it tells. -/
theorem Underway.tells (underway : Underway c message stand) (sized : c.Sized)
    (accepted : message.rejection? c.pieces = none) :
    c.Tells (c.standing.hear message) stand.1 ∧
      (stand.1.standing.lastKeepAlive.isSome = true ↔
        c.standing.lastKeepAlive.isSome = true ∨ message = .keepAlive) := by
  induction underway with
  | start field now =>
      refine ⟨(receive_of_accepted sized accepted).2, ?_⟩
      rw [lastKeepAlive_receive]
      split <;> simp [*]
  | @goOn c' errand field result before ih =>
      obtain ⟨amInterested, same⟩ := c'.resume_fst field errand result
      rw [same]
      exact ⟨⟨ih.1.pieces, ih.1.about⟩, ih.2⟩

theorem Underway.accepted {c' : Conversation} (underway : Underway c message (c', .ok))
    (sized : c.Sized) : message.rejection? c.pieces = none := by
  cases rejected : message.rejection? c.pieces with
  | none => rfl
  | some fault => cases underway.of_rejected sized rejected

/-- What the remote asks of us leaves everything as it is. -/
theorem Underway.of_isPassedOver (underway : Underway c message stand)
    (passed : message.isPassedOver = true) :
    stand.1 = c ∧ ∀ errand, stand.2 = .handing errand → ∃ ref, errand = .cancel ref := by
  induction underway with
  | start field now =>
      cases message with
      | request ref => exact ⟨rfl, nofun⟩
      | port number => exact ⟨rfl, nofun⟩
      | cancel ref =>
          refine ⟨rfl, ?_⟩
          intro errand handing
          cases handing
          exact ⟨ref, rfl⟩
      | _ => contradiction
  | @goOn c' errand field result before ih =>
      obtain ⟨rfl, cancels⟩ := ih
      obtain ⟨ref, rfl⟩ := cancels errand rfl
      cases result with
      | expired =>
          refine ⟨rfl, ?_⟩
          intro errand handing
          cases handing
          exact ⟨ref, rfl⟩
      | _ => exact ⟨rfl, nofun⟩

end Handling

/-! ### A run of messages -/

/-- What is known agrees with the messages taken, at every point of a run. -/
theorem Took.agrees {c c' : Conversation} {messages : List Message} (took : Took c messages c')
    (fresh : Standing.Agrees c.pieces [] c.standing) :
    c'.pieces = c.pieces ∧ Standing.Agrees c.pieces messages c'.standing := by
  induction took with
  | none => exact ⟨rfl, fresh⟩
  | @next messages message c' c'' before handled ih =>
      obtain ⟨pieces, agrees⟩ := ih
      have here : c'.Sized := agrees.size.trans pieces.symm
      have accepted := handled.accepted here
      obtain ⟨tells, alive⟩ := handled.tells here accepted
      exact ⟨tells.pieces.trans pieces, agrees.hear (pieces ▸ accepted) tells.about alive⟩

/-- Even while a message is handled, and also when that fails, the remote's bitfield is of
the swarm's size and has no bit behind the last piece. -/
theorem Underway.canonical {c : Conversation} {message : Message}
    {stand : Conversation × Progress} (underway : Underway c message stand)
    {messages : List Message} (agrees : Standing.Agrees c.pieces messages c.standing) :
    stand.1.standing.remote.pieces = c.pieces ∧ stand.1.standing.remote.Canonical := by
  cases rejected : message.rejection? c.pieces with
  | some fault =>
      rw [underway.of_rejected agrees.size rejected]
      exact ⟨agrees.size, agrees.canonical⟩
  | none =>
      obtain ⟨tells, alive⟩ := underway.tells agrees.size rejected
      have heard := agrees.hear rejected tells.about alive
      exact ⟨heard.size, heard.canonical⟩

/-- What a run of messages makes known of the remote, whatever we hold meanwhile.

The remote chokes us unless it has last said otherwise, and is interested only if it has
last said so; we choke it all the time. Its bitfield has the swarm's size and no spare bit
set, even between two messages, and holds what the last whole field held and whatever
was announced after it. A keep-alive is remembered exactly if there was one. What the
remote asks of us changes nothing. -/
theorem known_after_messages (addr : String) (pieces : UInt64) (channel : Nat)
    (messages : List Message) (c : Conversation)
    (took : (Conversation.start addr pieces channel).Took messages c) :
    c.standing.peerChoking = (lastSaid Message.chokes? messages).getD true ∧
      c.standing.peerInterested = (lastSaid Message.interest? messages).getD false ∧
      c.standing.amChoking = true ∧
      (c.standing.remote.pieces = pieces ∧ c.standing.remote.Canonical ∧
        ∀ message stand, c.Underway message stand →
          stand.1.standing.remote.pieces = pieces ∧ stand.1.standing.remote.Canonical) ∧
      (∀ index, c.standing.remote.has index = true ↔ ToldToHold messages index) ∧
      (c.standing.lastKeepAlive.isSome = true ↔ .keepAlive ∈ messages) ∧
      ∀ message c', message.isPassedOver = true → c.Underway message (c', .ok) →
        c'.standing = c.standing := by
  obtain ⟨same, agrees⟩ := took.agrees (Standing.agrees_nil pieces)
  have here : Standing.Agrees c.pieces messages c.standing := same ▸ agrees
  refine ⟨agrees.choking, agrees.interest, agrees.ours, ⟨agrees.size, agrees.canonical, ?_⟩,
    agrees.holds, agrees.alive, ?_⟩
  · intro message stand underway
    obtain ⟨size, canonical⟩ := underway.canonical here
    exact ⟨size.trans same, canonical⟩
  · intro message c' passed underway
    obtain ⟨unchanged, -⟩ := underway.of_isPassedOver passed
    exact congrArg Conversation.standing unchanged

/-- A field, an announcement behind it and a keep-alive, with a request that found no room. -/
theorem known_after_messages_expired :
    let messages : List Message := [.bitfield [160], .unchoke, .havePiece 1, .keepAlive]
    ∃ c, (Conversation.start "10.0.0.7:6881" 4 0).Took messages c ∧
      c.standing.peerChoking = false ∧ c.standing.remote.has 1 = true ∧
      c.standing.remote.has 3 = false := by
  intro messages
  let after (standing : Standing) : Conversation :=
    { Conversation.start "10.0.0.7:6881" 4 0 with standing }
  let field : Standing := { remote := ⟨4, [160]⟩, amInterested := true }
  let unchoked : Standing := { field with peerChoking := false }
  let added : Standing := { unchoked with remote := ⟨4, [224]⟩ }
  let alive : Standing := { added with lastKeepAlive := some 3 }
  have announcing : (Conversation.start "10.0.0.7:6881" 4 0).Underway (.bitfield [160])
      (after field, .handing (.announce true true)) := .start (.empty 4) 0
  have first : (Conversation.start "10.0.0.7:6881" 4 0).Underway (.bitfield [160])
      (after field, .ok) := .goOn (.empty 4) .accepted announcing
  have asking : (after field).Underway .unchoke (after unchoked, .handing (.request ⟨4, [160]⟩)) :=
    .start (.empty 4) 1
  have second : (after field).Underway .unchoke (after unchoked, .ok) :=
    .goOn (.empty 4) .expired asking
  have askingMore : (after unchoked).Underway (.havePiece 1)
      (after added, .handing (.request ⟨4, [224]⟩)) := .start (.empty 4) 2
  have third : (after unchoked).Underway (.havePiece 1) (after added, .ok) :=
    .goOn (.empty 4) .accepted askingMore
  have fourth : (after added).Underway .keepAlive (after alive, .ok) := .start (.empty 4) 3
  have took := (((Took.none.next first).next second).next third).next fourth
  obtain ⟨choking, -, -, -, holds, -⟩ :=
    known_after_messages "10.0.0.7:6881" 4 0 messages (after alive) took
  refine ⟨after alive, took, choking, (holds 1).mpr ?_, ?_⟩
  · exact .inr ⟨1, by decide, rfl⟩
  · refine Bool.eq_false_iff.mpr (mt (holds 3).mp ?_)
    rintro (⟨bits, said, held⟩ | ⟨piece, told, same⟩)
    · cases said
      contradiction
    · have since : sinceField messages = [.unchoke, .havePiece 1, .keepAlive] := by decide
      rw [since] at told
      obtain rfl : piece = 1 := by simpa using told
      contradiction

end Conversation

end PeerWire

import PeerWire.Proofs.Bitfield
import PeerWire.Proofs.Message.RoundTrip
import PeerWire.Proofs.Session.InboundStream
import PeerWire.Proofs.Session.WriteOrder

/-!
What one connection announces and the other makes of it. The announcement is the first message
on the wire, and it carries the bits of the announcing side's field. A reader that finds it at
the front of its wire takes the field over as what its remote holds, however the bytes are cut,
provided that the frame is within its limit; otherwise it gives the connection up before it has
changed anything.

`Exchange` says where the reader stands after some of those bytes, and how many of its turns it
still needs once all of them are there.
-/

namespace PeerWire

namespace Conversation

/-- The conversation once the remote's field is taken over. -/
def heard (c : Conversation) (field held : Bitfield) : Conversation :=
  { c with standing := { c.standing with
    remote := held
    amInterested := field.lacksSomeOf held } }

/-- Where the handling of a field can stand: it is done, or it has come to a request for what
the remote holds, or to the announcement that goes before it. -/
inductive Leads (held : Bitfield) : Nat → Progress → Prop where
  | done : Leads held 0 .ok
  | asking : Leads held 1 (.handing (.request held))
  | announcing (interested : Bool) : Leads held 2 (.handing (.announce interested true))

theorem leads_afterInterest (c : Conversation) (field : Bitfield) :
    ∃ left ≤ 1, Leads c.standing.remote left (c.afterInterest field true) := by
  unfold afterInterest considerRequest
  rw [if_pos rfl]
  split_ifs
  · exact ⟨0, Nat.zero_le 1, .done⟩
  · exact ⟨0, Nat.zero_le 1, .done⟩
  · exact ⟨1, Nat.le_refl 1, .asking⟩

/-- A canonical field of the right size is taken over as it is. -/
theorem receive_field {c : Conversation} {held : Bitfield} (field : Bitfield) (now : Nat)
    (sized : c.pieces = held.pieces) (canonical : held.Canonical) :
    ∃ left ≤ 2, ∃ progress, c.receive field now (.bitfield held.bits) =
      (c.heard field held, progress) ∧ Leads held left progress := by
  have accepted : Bitfield.ofBytes? c.pieces held.bits = .ok held := by
    rw [sized]
    exact Bitfield.ofBytes?_eq_ok_iff.mpr ⟨rfl, canonical⟩
  unfold receive reviewInterest
  simp only [accepted]
  split
  · rename_i same
    obtain ⟨left, few, leads⟩ := leads_afterInterest
      { c with standing := { c.standing with remote := held } } field
    refine ⟨left, Nat.le_succ_of_le few, _, ?_, leads⟩
    rw [heard, same]
  · exact ⟨2, Nat.le_refl 2, _, rfl, .announcing _⟩

end Conversation

/-! ### The frame -/

namespace Stream

/-- A frame is read within the limit and refused beyond it; and no part of it is read as
anything else. -/
theorem next_part (limit : Nat) {bits part rest : List UInt8}
    (short : 1 + bits.length < 2 ^ 32) (cut : part ++ rest = Frame.encode (.bitfield bits)) :
    (1 + bits.length ≤ limit ∧ rest = [] ∧ next limit part = .message (.bitfield bits) []) ∨
      (limit < 1 + bits.length ∧
        next limit part = .refused (.frame (.tooLarge (1 + bits.length) limit))) ∨
      rest ≠ [] ∧ ∃ room, next limit part = .more room := by
  have small : (Message.bitfield bits).wireLength < 2 ^ 32 := short
  have announced := Frame.announced?_encode_append small []
  rw [List.append_nil] at announced
  have whole : next limit (Frame.encode (.bitfield bits)) =
      if 1 + bits.length ≤ limit then .message (.bitfield bits) []
      else .refused (.frame (.tooLarge (1 + bits.length) limit)) := by
    split
    · rename_i within
      have read := next_encode_append (within : (Message.bitfield bits).wireLength ≤ limit) small
        nofun []
      rwa [List.append_nil] at read
    · rename_i beyond
      simp only [next, announced, Message.wireLength, if_pos (Nat.not_le.mp beyond)]
  cases found : next limit part with
  | message message after =>
      have all := next_append_message found rest
      rw [cut, whole] at all
      split at all
      · rename_i within
        obtain ⟨rfl, nothing⟩ := Next.message.inj all
        obtain ⟨rfl, rfl⟩ := List.append_eq_nil_iff.mp nothing.symm
        exact .inl ⟨within, rfl, rfl⟩
      · contradiction
  | refused failure =>
      have all := next_append_refused found rest
      rw [cut, whole] at all
      split at all
      · contradiction
      · rename_i beyond
        cases all
        exact .inr (.inl ⟨Nat.not_le.mp beyond, rfl⟩)
  | more room =>
      refine .inr (.inr ⟨?_, room, rfl⟩)
      rintro rfl
      rw [List.append_nil] at cut
      rw [cut, whole] at found
      split at found <;> contradiction

end Stream

namespace Session

/-! ### The two sides -/

/-- A side that has not begun to write before the history, and in it writes at least one
message. It takes up the first of them, whichever that is, when it holds `held`. -/
structure Announces (a : Session) (history : List Event) (held : Bitfield) : Prop where
  fresh : a.writer.isBringingUp = true
  unread : a.reader = .absent
  holding : (a.jobs history).head?.map (·.2) = some held
  sent : a.written history ≠ []

/-- The first message says what the side held when it took it up. -/
theorem Announces.written {a : Session} {history : List Event} {held : Bitfield}
    (announces : a.Announces history held) :
    (a.written history).take 1 = [.bitfield held.bits] := by
  have writes := writes_run history (.fresh announces.fresh announces.unread)
  have holding := announces.holding
  rcases writes.first with none | ⟨field, rest, jobs, -⟩
  · rw [none] at holding
    contradiction
  · rw [jobs] at holding
    cases holding
    have done := writes.done
    rw [jobs] at done
    cases written : a.written history with
    | nil => exact absurd written announces.sent
    | cons first later =>
        rw [written, List.map_cons, List.cons_prefix_cons] at done
        rw [done.1]
        rfl

/-- A side that is ready for the announcement: it waits to read it, has room for what it may
have to say about it, and is in no hurry. -/
structure Receptive (b : Session) (limit : Nat) : Prop where
  dialed : b.transport.dial = .connected
  inbound : b.transport.inbound = .bytes limit [] .flowing
  reading : ∃ deadline, b.reader = .reading deadline ∧ b.isDue deadline = false
  patient : b.isDue b.readDeadline = false
  alive : b.teardown.hasFired = false
  uncalled : b.teardown.ending? = none
  outbound : b.outbox.incoming.Roomy
  requests : b.requests.Roomy

/-! ### The exchange -/

/-- The side with these bytes waiting to be read. -/
def buffering (b : Session) (limit : Nat) (part : List UInt8) : Session :=
  { b with transport := { b.transport with inbound := .bytes limit part .flowing } }

theorem Receptive.buffering_nil {b : Session} {limit : Nat} (receptive : b.Receptive limit) :
    b.buffering limit [] = b := by
  rw [buffering, ← receptive.inbound]

/-- The side once it has taken the field over, and may have said something about it. -/
def hearing (b : Session) (held : Bitfield) (incoming : Mailbox Message) (reader : ReaderPhase) :
    Session :=
  { b with
    conversation := b.conversation.heard b.field held
    outbox := { b.outbox with incoming }
    reader }

/-- The side that has taken the field over, shows it, and reads on. -/
def informed (b : Session) (held : Bitfield) (incoming : Mailbox Message)
    (requests : Mailbox PieceRequest) (responders : Nat) : Session :=
  { b.hearing held incoming (.reading b.readDeadline) with
    status := (b.conversation.heard b.field held).status
    requests
    responders }

/-- What the reader has made of the part of an announcement that has arrived: of `held`, within
or beyond the limit. `left` counts the turns that it still needs once all has arrived. -/
inductive Exchange (b : Session) (limit : Nat) (held : Bitfield) :
    Nat → List UInt8 → Session → Prop where
  | waiting (part : List UInt8) : Exchange b limit held 3 part (b.buffering limit part)
  | announcing (within : 1 + held.bits.length ≤ limit) (interested : Bool) :
      Exchange b limit held 2 (Frame.encode (.bitfield held.bits))
        (b.hearing held b.outbox.incoming (.handling (.announce interested true) none))
  | asking (within : 1 + held.bits.length ≤ limit) (incoming : Mailbox Message)
      (deadline : Option Nat) :
      Exchange b limit held 1 (Frame.encode (.bitfield held.bits))
        (b.hearing held incoming (.handling (.request held) deadline))
  | settled (within : 1 + held.bits.length ≤ limit) (incoming : Mailbox Message)
      (requests : Mailbox PieceRequest) (responders : Nat) :
      Exchange b limit held 0 (Frame.encode (.bitfield held.bits))
        (b.informed held incoming requests responders)
  | refused {part : List UInt8} {s : Session} (beyond : limit < 1 + held.bits.length)
      (reader : s.reader.isEnding = true) (conversation : s.conversation = b.conversation)
      (status : s.status = b.status) (fired : s.teardown.hasFired = true)
      (reason : s.teardown.ending? =
        some (.ofReadFailure (.frame (.tooLarge (1 + held.bits.length) limit)))) :
      Exchange b limit held 0 part s

theorem arriveBytes_nil (inbound : Inbound) : inbound.arriveBytes [] = inbound := by
  unfold Inbound.arriveBytes
  split
  · rw [List.append_nil]
  · rfl

theorem after_of_nothing_arrived (s : Session) {bytes : List UInt8}
    (nothing : s.arrived (.remoteSendsBytes bytes) = []) :
    s.after (.remoteSendsBytes bytes) = s := by
  unfold arrived remoteSendsBytes at nothing
  unfold after remoteSendsBytes
  dsimp only at nothing ⊢
  split
  · rename_i accepts
    rw [if_pos accepts, if_pos rfl] at nothing
    rw [nothing, arriveBytes_nil]
  · rfl

theorem after_of_polled {s : Session} {deadline : Option Nat} {outcome : ReadOutcome}
    {inbound : Inbound} (phase : s.reader = .reading deadline)
    (alive : s.teardown.hasFired = false)
    (polled : s.transport.inbound.poll = some (outcome, inbound)) :
    s.after (.task .reader) =
      ({ s with transport := { s.transport with inbound } } : Session).afterRead outcome := by
  simp [after, step, stepReader, phase, stepRead, alive, polled]

theorem after_of_unpolled {s : Session} {deadline : Option Nat}
    (phase : s.reader = .reading deadline) (alive : s.teardown.hasFired = false)
    (polled : s.transport.inbound.poll = none) (undue : s.isDue deadline = false) :
    s.after (.task .reader) = s := by
  simp [after, step, stepReader, phase, stepRead, alive, polled, undue]

theorem after_of_handed {s : Session} {errand : Errand} {deadline : Option Nat}
    (phase : s.reader = .handling errand deadline) (alive : s.teardown.hasFired = false)
    (receipt : (s.attempt errand).1 = .accepted) :
    s.after (.task .reader) = (s.attempt errand).2.resume errand .accepted := by
  cases handed : s.attempt errand with
  | mk taken further =>
      rw [handed] at receipt
      cases receipt
      simp [after, step, stepReader, phase, stepHandling, alive, handed]

namespace Exchange

variable {b s : Session} {limit left : Nat} {held : Bitfield} {part : List UInt8}

/-- Nothing more arrives where all has arrived. -/
theorem eq_nil_of_append_prefix {whole more : List UInt8} (cut : whole ++ more <+: whole) :
    more = [] := by
  have short := cut.length_le
  rw [List.length_append] at short
  exact List.eq_nil_of_length_eq_zero (by omega)

theorem bytes (exchange : Exchange b limit held left part s) (receptive : b.Receptive limit)
    (bytes : List UInt8)
    (cut : part ++ s.arrived (.remoteSendsBytes bytes) <+: Frame.encode (.bitfield held.bits)) :
    Exchange b limit held left (part ++ s.arrived (.remoteSendsBytes bytes))
      (s.after (.remoteSendsBytes bytes)) := by
  cases exchange with
  | waiting =>
      have came : (b.buffering limit part).arrived (.remoteSendsBytes bytes) = bytes := by
        simp [buffering, arrived, remoteSendsBytes, receptive.dialed, Inbound.isOver]
      have after : (b.buffering limit part).after (.remoteSendsBytes bytes) =
          b.buffering limit (part ++ bytes) := by
        simp [buffering, Session.after, remoteSendsBytes, receptive.dialed, Inbound.isOver,
          Inbound.arriveBytes]
      rw [came, after]
      exact .waiting _
  | refused beyond reader conversation status fired reason =>
      simp only [Session.after, remoteSendsBytes]
      split <;> exact .refused beyond reader conversation status fired reason
  | announcing within interested =>
      have nothing := eq_nil_of_append_prefix cut
      rw [after_of_nothing_arrived _ nothing, nothing, List.append_nil]
      exact .announcing within interested
  | asking within incoming deadline =>
      have nothing := eq_nil_of_append_prefix cut
      rw [after_of_nothing_arrived _ nothing, nothing, List.append_nil]
      exact .asking within incoming deadline
  | settled within incoming requests responders =>
      have nothing := eq_nil_of_append_prefix cut
      rw [after_of_nothing_arrived _ nothing, nothing, List.append_nil]
      exact .settled within incoming requests responders

/-- The reader goes where the handling of the field leads. -/
theorem of_leads {progress : Progress} (within : 1 + held.bits.length ≤ limit)
    (conversation : Conversation) (incoming : Mailbox Message) (reader : ReaderPhase)
    (leads : Conversation.Leads held left progress)
    (first : left = 2 → incoming = b.outbox.incoming) :
    Exchange b limit held left (Frame.encode (.bitfield held.bits))
      (({ b with conversation, outbox := { b.outbox with incoming }, reader } :
        Session).proceed (b.conversation.heard b.field held, progress)) := by
  cases leads with
  | done => exact .settled within incoming b.requests b.responders
  | asking => exact .asking within incoming _
  | announcing interested =>
      rw [first rfl]
      exact .announcing within interested

/-- The reader reads the announcement once it is there, and refuses it as soon as it is known
to be too long. -/
theorem read (receptive : b.Receptive limit) (short : 1 + held.bits.length < 2 ^ 32)
    (sized : b.conversation.pieces = held.pieces) (canonical : held.Canonical)
    (cut : part <+: Frame.encode (.bitfield held.bits)) :
    ∃ left', (part = Frame.encode (.bitfield held.bits) → left' ≤ 2) ∧
      Exchange b limit held left' part ((b.buffering limit part).after (.task .reader)) := by
  obtain ⟨deadline, phase, undue⟩ := receptive.reading
  have facing : (b.buffering limit part).reader = .reading deadline := phase
  obtain ⟨rest, whole⟩ := cut
  rcases Stream.next_part limit short whole with
    ⟨within, rfl, found⟩ | ⟨beyond, found⟩ | ⟨missing, room, found⟩
  · rw [List.append_nil] at whole
    obtain ⟨left, few, progress, handled, leads⟩ :=
      Conversation.receive_field b.field b.now sized canonical
    have polled : (b.buffering limit part).transport.inbound.poll =
        some (.message (.bitfield held.bits), .bytes limit [] .flowing) := by
      simp [buffering, Inbound.poll, found]
    have next : (b.buffering limit part).after (.task .reader) =
        b.proceed (b.conversation.heard b.field held, progress) := by
      rw [after_of_polled facing receptive.alive polled]
      change (b.buffering limit []).afterRead _ = _
      rw [receptive.buffering_nil, afterRead_message, handled]
    rw [next, whole]
    refine ⟨left, fun _ => few, ?_⟩
    exact of_leads within b.conversation b.outbox.incoming b.reader leads fun _ => rfl
  · have polled : (b.buffering limit part).transport.inbound.poll =
        some (.failed (.frame (.tooLarge (1 + held.bits.length) limit)),
          .bytes limit part .flowing) := by
      simp [buffering, Inbound.poll, found]
    rw [after_of_polled facing receptive.alive polled]
    refine ⟨0, fun _ => Nat.zero_le 2, .refused beyond rfl rfl rfl ?_ ?_⟩
    · exact Teardown.hasFired_trigger _ _ _
    · exact Teardown.ending?_trigger_of_uncalled receptive.uncalled _ _
  · have polled : (b.buffering limit part).transport.inbound.poll = none := by
      simp [buffering, Inbound.poll, found]
    rw [after_of_unpolled facing receptive.alive polled undue]
    refine ⟨3, ?_, .waiting part⟩
    rintro rfl
    exact absurd (List.append_right_eq_self.mp whole) missing

/-- A reader on its way out stays there, and changes nothing that others see. -/
theorem after_of_isEnding (ending : s.reader.isEnding = true) :
    (s.after (.task .reader)).reader.isEnding = true ∧
      (s.after (.task .reader)).conversation = s.conversation ∧
      (s.after (.task .reader)).status = s.status := by
  have atWork : s.reader.isAtWork ≠ true := by
    intro atWork
    rw [ReaderPhase.not_isEnding atWork] at ending
    contradiction
  generalize s.after (.task .reader) = s', after_move s (.task .reader) = move
  cases move with
  | wait => exact ⟨ending, rfl, rfl⟩
  | reader move =>
      cases move with
      | cut phase => exact absurd phase atWork
      | released => exact ⟨rfl, rfl, rfl⟩
      | calling => exact ⟨ending, rfl, rfl⟩
      | read phase => exact absurd (by rw [phase]; rfl) atWork
      | starved phase => exact absurd (by rw [phase]; rfl) atWork
      | handed phase => exact absurd (by rw [phase]; rfl) atWork
      | turnedAway phase => exact absurd (by rw [phase]; rfl) atWork
      | expired phase => exact absurd (by rw [phase]; rfl) atWork
      | queued phase => exact absurd (by rw [phase]; rfl) atWork
  | outside surroundings => contradiction

theorem reader (exchange : Exchange b limit held left part s) (receptive : b.Receptive limit)
    (short : 1 + held.bits.length < 2 ^ 32) (sized : b.conversation.pieces = held.pieces)
    (canonical : held.Canonical) (cut : part <+: Frame.encode (.bitfield held.bits)) :
    ∃ left', (part = Frame.encode (.bitfield held.bits) → left' ≤ left - 1) ∧
      Exchange b limit held left' part (s.after (.task .reader)) := by
  cases exchange with
  | waiting => exact read receptive short sized canonical cut
  | announcing within interested =>
      let errand : Errand := .announce interested true
      let u := b.hearing held b.outbox.incoming (.handling errand none)
      have receipt : (u.attempt errand).1 = .accepted :=
        congrArg Prod.fst (receptive.outbound.send_eq .reader (.ofInterest interested))
      obtain ⟨left, few, leads⟩ :=
        Conversation.leads_afterInterest (b.conversation.heard b.field held) b.field
      refine ⟨left, fun _ => few, ?_⟩
      rw [after_of_handed (rfl : u.reader = .handling errand none) receptive.alive receipt]
      refine of_leads within (b.conversation.heard b.field held) _ (.handling errand none) leads ?_
      rintro rfl
      omega
  | asking within incoming deadline =>
      let errand : Errand := .request held
      let u := b.hearing held incoming (.handling errand deadline)
      have receipt : (u.attempt errand).1 = .accepted :=
        congrArg Prod.fst (receptive.requests.send_eq .reader _)
      refine ⟨0, fun _ => Nat.le_refl 0, ?_⟩
      rw [after_of_handed (rfl : u.reader = .handling errand deadline) receptive.alive receipt]
      exact .settled within incoming _ _
  | settled within incoming requests responders =>
      let u := b.informed held incoming requests responders
      have polled : u.transport.inbound.poll = none := by
        change b.transport.inbound.poll = none
        rw [receptive.inbound]
        rfl
      refine ⟨0, fun _ => Nat.le_refl 0, ?_⟩
      rw [after_of_unpolled (rfl : u.reader = .reading b.readDeadline) receptive.alive polled
        receptive.patient]
      exact .settled within incoming requests responders
  | refused beyond ending conversation status fired reason =>
      obtain ⟨still, same, shown⟩ := after_of_isEnding ending
      have turn := (after_move s (.task .reader)).teardown_turn
      exact ⟨0, fun _ => Nat.le_refl 0, .refused beyond still (same.trans conversation)
        (shown.trans status) (turn.later.fired fired) (turn.ending? reason)⟩

theorem left_le (exchange : Exchange b limit held left part s) : left ≤ 3 := by
  cases exchange <;> decide

/-- Every turn that the reader takes once all has arrived brings it nearer to the end. -/
theorem turns (exchange : Exchange b limit held left (Frame.encode (.bitfield held.bits)) s)
    (receptive : b.Receptive limit) (short : 1 + held.bits.length < 2 ^ 32)
    (sized : b.conversation.pieces = held.pieces) (canonical : held.Canonical) (count : Nat) :
    ∃ left' ≤ left - count, Exchange b limit held left' (Frame.encode (.bitfield held.bits))
      (s.run (List.replicate count (.task .reader))) := by
  induction count with
  | zero => exact ⟨left, Nat.le_refl left, exchange⟩
  | succ count ih =>
      obtain ⟨before, fewer, reached⟩ := ih
      obtain ⟨left', less, further⟩ := reached.reader receptive short sized canonical
        List.prefix_rfl
      rw [List.replicate_succ', run_concat]
      exact ⟨left', (less rfl).trans (by omega), further⟩

end Exchange

/-- The exchange goes its way, however the announcement is cut. -/
theorem exchange_run {b : Session} {limit : Nat} {held : Bitfield} {later : List Event}
    (receptive : b.Receptive limit) (short : 1 + held.bits.length < 2 ^ 32)
    (sized : b.conversation.pieces = held.pieces) (canonical : held.Canonical)
    (turns : ∀ event ∈ later, event = .task .reader ∨ ∃ bytes, event = .remoteSendsBytes bytes)
    (cut : b.arrivals later <+: Frame.encode (.bitfield held.bits)) :
    ∃ left, Exchange b limit held left (b.arrivals later) (b.run later) := by
  induction later using List.reverseRecOn with
  | nil =>
      have fresh : Exchange b limit held 3 [] (b.buffering limit []) := .waiting []
      rw [receptive.buffering_nil] at fresh
      exact ⟨3, fresh⟩
  | append_singleton past event ih =>
      have grown : b.arrivals (past ++ [event]) =
          b.arrivals past ++ (b.run past).arrived event := observe_concat _ _ _ _
      rw [grown] at cut ⊢
      rw [run_concat]
      obtain ⟨left, reached⟩ := ih (fun other inside => turns other (by simp [inside]))
        ((List.prefix_append _ _).trans cut)
      rcases turns event (by simp) with rfl | ⟨bytes, rfl⟩
      · have nothing : (b.run past).arrived (.task .reader) = [] := rfl
        rw [nothing, List.append_nil] at cut ⊢
        obtain ⟨left', -, further⟩ := reached.reader receptive short sized canonical cut
        exact ⟨left', further⟩
      · exact ⟨left, reached.bytes receptive bytes cut⟩

/-- Two connections agree on what the one holds. Side `a` brings its wire up when it holds the
field `held`, and side `b` of the same number of pieces waits to read with the frame limit
`limit`. The first message of `a` reaches it in whatever parts, with turns of its reader between
them, and its reader gets three more turns in the end. Then `b` goes on exactly if the frame is
within its limit. If so, `held` is what it knows of its remote, the status says so, and it is
interested exactly if `held` has a piece that it lacks. If not, its connection ends over a frame
that is too large, and nothing of what it knows has changed. -/
theorem field_exchange (a b : Session) (history : List Event) (pieces : UInt64) (held : Bitfield)
    (limit : Nat) (later : List Event) (announces : a.Announces history held)
    (receptive : b.Receptive limit)
    (built : held.Built) (own : b.field.Built) (theirs : held.pieces = pieces)
    (ours : b.field.pieces = pieces) (agreed : b.conversation.pieces = pieces)
    (short : 1 + (pieces.toNat + 7) / 8 < 2 ^ 32)
    (turns : ∀ event ∈ later, event = .task .reader ∨ ∃ bytes, event = .remoteSendsBytes bytes)
    (wire : b.arrivals later = ((a.written history).take 1).flatMap Frame.encode) :
    let now := b.run (later ++ List.replicate 3 (.task .reader))
    let length := 1 + (pieces.toNat + 7) / 8
    (now.teardown.hasFired = false ↔ length ≤ limit) ∧
      (length ≤ limit →
        now.reader = .reading b.readDeadline ∧ now.conversation.standing.remote = held ∧
          now.status = now.conversation.status ∧ now.status.remotePieces = held.count ∧
          (now.status.amInterested = true ↔
            ∃ index, held.has index = true ∧ b.field.has index = false)) ∧
      (limit < length →
        now.conversation = b.conversation ∧ now.status = b.status ∧
          now.teardown.ending? =
            some (.ofReadFailure (.frame (.tooLarge length limit)))) := by
  intro now length
  have canonical := built.canonical
  have size : held.bits.length = (pieces.toNat + 7) / 8 := by
    rw [canonical.length, theirs, Bitfield.toNat_byteCount]
  rw [announces.written, List.flatMap_singleton] at wire
  have sized : b.conversation.pieces = held.pieces := agreed.trans theirs.symm
  obtain ⟨left, reached⟩ := exchange_run receptive (size ▸ short) sized canonical turns
    (wire ▸ List.prefix_rfl)
  rw [wire] at reached
  obtain ⟨none, few, last⟩ := reached.turns receptive (size ▸ short) sized canonical 3
  have settled : none = 0 := by
    have most := reached.left_le
    omega
  have split : now = (b.run later).run (List.replicate 3 (.task .reader)) := List.foldl_append
  rw [← split, settled] at last
  have interested : b.field.lacksSomeOf held = true ↔
      ∃ index, held.has index = true ∧ b.field.has index = false := by
    rw [own.canonical.lacksSomeOf_iff canonical (ours.trans theirs.symm)]
    constructor
    · rintro ⟨index, -, has, lacks⟩
      exact ⟨index, has, lacks⟩
    · rintro ⟨index, has, lacks⟩
      refine ⟨index, ?_, has, lacks⟩
      rw [Bitfield.has_eq, Bool.and_eq_true, decide_eq_true_eq] at has
      rw [Bitfield.size, ours, ← theirs]
      exact has.1
  clear split
  clear_value now
  cases last with
  | settled within incoming requests responders =>
      rw [size] at within
      refine ⟨iff_of_true receptive.alive within, ?_, fun beyond => absurd within (by omega)⟩
      exact fun _ => ⟨rfl, rfl, rfl, rfl, interested⟩
  | refused beyond ending conversation status fired reason =>
      rw [size] at beyond reason
      refine ⟨iff_of_false (by simp [fired]) (by omega), fun within => absurd beyond (by omega), ?_⟩
      exact fun _ => ⟨conversation, status, reason⟩

/-- A seed announces ten pieces to a side that has none, and whose limit the frame just meets. -/
theorem field_exchange_split :
    let a := Session.start .default default "10.0.0.8:6881" 10 (.full 10) ⟨1, 4, 4⟩
      (.adopt default)
    let history : List Event := [.task .writer, .task .writer]
    let b := (Session.start .default default "10.0.0.7:6881" 10 (.empty 10) ⟨1, 4, 4⟩
      (.toDial 3 .connected)).run [.task .writer, .task .writer, .task .writer,
        .remoteSendsBytes (19 :: Handshake.protocolName ++ List.replicate 48 0), .task .writer,
        .task .writer]
    let later : List Event :=
      [.remoteSendsBytes [0, 0], .task .reader, .remoteSendsBytes [0, 3, 5, 255, 192]]
    let now := b.run (later ++ List.replicate 3 (.task .reader))
    b.arrivals later = ((a.written history).take 1).flatMap Frame.encode ∧
      now.teardown.hasFired = false ∧ now.conversation.standing.remote = .full 10 ∧
      now.status.remotePieces = (Bitfield.full 10).count := by
  intro a history b later now
  have announces : a.Announces history (.full 10) :=
    ⟨by decide, by decide, by decide, by decide⟩
  have receptive : b.Receptive 3 :=
    { dialed := by decide +kernel
      inbound := by rfl
      reading := ⟨none, by decide +kernel, by decide +kernel⟩
      patient := by decide +kernel
      alive := by decide +kernel
      uncalled := by decide +kernel
      outbound := ⟨by decide +kernel, by decide +kernel⟩
      requests := ⟨by decide +kernel, by decide +kernel⟩ }
  have own : b.field.Built := .empty 10
  have wire : b.arrivals later = ((a.written history).take 1).flatMap Frame.encode := by
    decide +kernel
  obtain ⟨alive, accepted, -⟩ := field_exchange a b history 10 (.full 10) 3 later announces
    receptive (.full 10) own rfl rfl rfl (by decide) (by simp [later]) wire
  obtain ⟨-, remote, -, count, -⟩ := accepted (by decide)
  exact ⟨wire, alive.mpr (by decide), remote, count⟩

end Session

end PeerWire

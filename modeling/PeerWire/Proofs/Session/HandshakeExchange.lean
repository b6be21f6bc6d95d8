import PeerWire.Proofs.Session.InboundStream
import PeerWire.Proofs.Session.Unestablished

/-!
The exchange of handshakes on a dialed wire hands the stream over intact. Whatever the remote
sends and however it is cut on the way: our 68 bytes go out first and alone, the remote is
accepted exactly if its stream opens with a handshake of our swarm, and of its stream those 68
bytes are taken and no others. The reads behind the handshake bring what stands behind it,
also when it arrived together with the handshake.

`Stream.outcomes` is all that reads of a stream bring, as a function of its bytes alone.
`Handover` ties a connection to the bytes that have arrived: they all wait until the remote is
accepted, and afterwards messages have come off the front of those behind the handshake.
-/

namespace PeerWire

/-! ### Reads of a stream -/

namespace Stream

variable {limit : Nat} {bytes left rest : List UInt8} {state : StreamState}
  {sofar : List ReadOutcome} {message : Message} {outcome : ReadOutcome} {inbound : Inbound}

/-- What a read brings where no message stands at the front. -/
def closing? (left : List UInt8) : StreamState → Option ReadOutcome
  | .flowing => none
  | .broken failure => some (.failed failure)
  | .ended => some (if left.isEmpty then .ended else .failed .bytesRemaining)

/-- All that reads of a stream bring, as far as its bytes go. -/
def outcomes (limit : Nat) (bytes : List UInt8) (state : StreamState) : List ReadOutcome :=
  let (messages, stop, left) := drain limit bytes
  messages.map .message ++
    match stop with
    | .refused failure => [.failed failure]
    | .more _ => (closing? left state).toList

section Front

variable {room : Nat} {failure : Failure}

theorem outcomes_of_message (found : next limit bytes = .message message rest) :
    outcomes limit bytes state = .message message :: outcomes limit rest state := by
  simp only [outcomes, drain_of_message found, List.map_cons, List.cons_append]

theorem outcomes_of_refused (refused : next limit bytes = .refused failure) :
    outcomes limit bytes state = [.failed failure] := by
  simp only [outcomes, drain_of_refused refused, List.map_nil, List.nil_append]

theorem outcomes_of_more (needs : next limit bytes = .more room) :
    outcomes limit bytes state = (closing? bytes state).toList := by
  simp only [outcomes, drain_of_more needs, List.map_nil, List.nil_append]

theorem poll_of_message (found : next limit bytes = .message message rest) :
    (Inbound.bytes limit bytes state).poll =
      some (.message message, .bytes limit rest state) := by
  simp only [Inbound.poll, found]

theorem poll_of_refused (refused : next limit bytes = .refused failure) :
    (Inbound.bytes limit bytes state).poll =
      some (.failed failure, .bytes limit bytes state) := by
  simp only [Inbound.poll, refused]

theorem poll_of_more (needs : next limit bytes = .more room) :
    (Inbound.bytes limit bytes state).poll =
      (closing? bytes state).map (·, .bytes limit bytes state) := by
  simp only [Inbound.poll, needs]
  cases state with
  | ended =>
      simp only [closing?, Option.map_some]
      split <;> rfl
  | _ => rfl

end Front

/-- A read brings the first of the outcomes, and waits if there is none. -/
theorem head?_outcomes (limit : Nat) (bytes : List UInt8) (state : StreamState) :
    (outcomes limit bytes state).head? = (Inbound.bytes limit bytes state).poll.map Prod.fst := by
  cases front : next limit bytes with
  | message message rest =>
      rw [outcomes_of_message front, poll_of_message front]
      rfl
  | refused failure =>
      rw [outcomes_of_refused front, poll_of_refused front]
      rfl
  | more room =>
      rw [outcomes_of_more front, poll_of_more front]
      cases closing? bytes state <;> rfl

/-- A read takes a message off the front, or leaves the stream as it is. -/
theorem poll_cases (polled : (Inbound.bytes limit bytes state).poll = some (outcome, inbound)) :
    (∃ message rest, next limit bytes = .message message rest ∧ outcome = .message message ∧
        inbound = .bytes limit rest state) ∨
      outcome.message? = none ∧ inbound = .bytes limit bytes state := by
  cases front : next limit bytes with
  | message message rest =>
      rw [poll_of_message front] at polled
      cases polled
      exact .inl ⟨message, rest, rfl, rfl, rfl⟩
  | refused failure =>
      rw [poll_of_refused front] at polled
      cases polled
      exact .inr ⟨rfl, rfl⟩
  | more room =>
      rw [poll_of_more front] at polled
      cases state with
      | flowing => contradiction
      | broken failure =>
          cases polled
          exact .inr ⟨rfl, rfl⟩
      | ended =>
          cases polled
          refine .inr ⟨?_, rfl⟩
          split <;> rfl

/-- A read that leaves the stream as it is brings the last of the outcomes. -/
theorem outcomes_of_stopped (stopped : (Inbound.bytes limit bytes state).poll =
    some (outcome, .bytes limit bytes state)) : outcomes limit bytes state = [outcome] := by
  cases front : next limit bytes with
  | message message rest =>
      rw [poll_of_message front] at stopped
      cases stopped
      exact absurd (length_lt_of_next front) (Nat.lt_irrefl _)
  | refused failure =>
      rw [poll_of_refused front] at stopped
      cases stopped
      exact outcomes_of_refused front
  | more room =>
      rw [poll_of_more front] at stopped
      obtain ⟨last, closing, same⟩ := Option.map_eq_some_iff.mp stopped
      cases same
      rw [outcomes_of_more front, closing]
      rfl

/-- What arrives behind a frame that was refused changes nothing, and behind the end of a
stream nothing arrives. -/
theorem stopped_arrive {state' : StreamState} {more : List UInt8}
    (stopped : (Inbound.bytes limit bytes state).poll = some (outcome, .bytes limit bytes state))
    (kept : state ≠ .flowing → more = [] ∧ state' = state) :
    (Inbound.bytes limit (bytes ++ more) state').poll =
      some (outcome, .bytes limit (bytes ++ more) state') := by
  by_cases flowing : state = .flowing
  · subst flowing
    cases front : next limit bytes with
    | message message rest =>
        rw [poll_of_message front] at stopped
        cases stopped
        exact absurd (length_lt_of_next front) (Nat.lt_irrefl _)
    | refused failure =>
        rw [poll_of_refused front] at stopped
        cases stopped
        exact poll_of_refused (next_append_refused front more)
    | more room =>
        rw [poll_of_more front] at stopped
        contradiction
  · obtain ⟨rfl, rfl⟩ := kept flowing
    rw [List.append_nil]
    exact stopped

/-- Once a stream has ended, reads bring what decoding it makes of all its chunks. -/
theorem outcomes_of_ended (limit : Nat) (chunks : List (List UInt8)) :
    outcomes limit chunks.flatten .ended = (Stream.read limit chunks).1.map .message ++
      [(Stream.read limit chunks).2.elim .ended .failed] := by
  have whole : Stream.read limit chunks = read.go limit chunks.flatten [] :=
    go_eq_go_nil limit chunks []
  rw [whole, go_nil]
  unfold outcomes
  generalize drain limit chunks.flatten = drained
  obtain ⟨messages, stop, left⟩ := drained
  cases stop with
  | refused failure => rfl
  | more room =>
      dsimp only [ending, closing?]
      split <;> rfl

/-- Messages come off the front of a stream, one read after the other. -/
inductive ReadOff (limit : Nat) (bytes : List UInt8) : List ReadOutcome → List UInt8 → Prop where
  | none : ReadOff limit bytes [] bytes
  | next {sofar : List ReadOutcome} {left rest : List UInt8} {message : Message}
      (earlier : ReadOff limit bytes sofar left)
      (found : Stream.next limit left = .message message rest) :
      ReadOff limit bytes (sofar ++ [.message message]) rest

namespace ReadOff

/-- More bytes arrive. -/
theorem arrive (read : ReadOff limit bytes sofar left) (more : List UInt8) :
    ReadOff limit (bytes ++ more) sofar (left ++ more) := by
  induction read with
  | none => exact .none
  | next earlier found ih => exact .next ih (next_append_message found more)

/-- What is still to come is what the rest brings. -/
theorem outcomes_eq (read : ReadOff limit bytes sofar left) (state : StreamState) :
    outcomes limit bytes state = sofar ++ outcomes limit left state := by
  induction read with
  | none => rfl
  | next earlier found ih => rw [ih, outcomes_of_message found, List.append_assoc]; rfl

end ReadOff

end Stream

namespace Session

variable {s s' : Session} {event : Event}

/-! ### One event -/

/-- The exchange of handshakes, and what has come of it, stay as they are. -/
structure LeavesHandover (s s' : Session) : Prop where
  established : s'.teardown.isEstablished = s.teardown.isEstablished
  inbound : s'.transport.inbound = s.transport.inbound
  remoteId : s'.conversation.remoteId = s.conversation.remoteId
  greeted : s.transport.outbound.hasGreeted = true → s'.transport.outbound.hasGreeted = true
  greeting : ∀ deadline, s'.writer = .greeting deadline true →
    s.writer = .greeting deadline true ∨ s'.transport.outbound.hasGreeted = true

/-- On a dialed wire the writer leaves the exchange alone, unless it accepts the remote. -/
theorem WriterMove.handover (move : WriterMove s s') (dialed : s.transport.adopted = none) :
    s.LeavesHandover s' ∨ ∃ deadline peerId rest, s.writer = .greeting deadline true ∧
      Handshake.receive s.identity.infoHash s.transport.inbound.waiting
        s.transport.inbound.hasEnded = .accepted peerId rest ∧
      s' = ({ s with transport := { s.transport with
        inbound := s.transport.inbound.leaving rest } } : Session).establish peerId := by
  cases move with
  | adopt phase alive sized adopted =>
      rw [dialed] at adopted
      contradiction
  | @welcome deadline peerId rest phase alive accepted =>
      exact .inr ⟨deadline, peerId, rest, phase, accepted, rfl⟩
  | greeted => exact .inl ⟨rfl, rfl, rfl, fun _ => rfl, fun _ _ => .inr rfl⟩
  | calling phase move => exact .inl ⟨move.isEstablished_eq, rfl, rfl, id, fun _ => .inl⟩
  | @released call up => cases up <;> exact .inl ⟨rfl, rfl, rfl, id, nofun⟩
  | abort | failed | dryUp =>
      exact .inl ⟨Teardown.isEstablished_trigger _ _ _, rfl, rfl, id, nofun⟩
  | _ => exact .inl ⟨rfl, rfl, rfl, id, nofun⟩

/-- The reader leaves the exchange alone, except for what it takes off the wire. -/
theorem ReaderMove.leavesHandover (move : ReaderMove s s')
    (inbound : s'.transport.inbound = s.transport.inbound) : s.LeavesHandover s' := by
  obtain ⟨standing, conversation⟩ := move.conversation_eq
  refine ⟨move.isEstablished_eq, inbound, by rw [conversation], ?_, ?_⟩
  · rw [move.frame.outbound]
    exact id
  · rw [move.frame.writer]
    exact fun _ => .inl

/-! ### The exchange along a history -/

/-- Where a connection on a dialed wire stands, by the bytes that its remote has sent, and by
what reads have brought it. -/
inductive Handover (limit : Nat) (infoHash : InfoHash) (received : List UInt8)
    (brought : List ReadOutcome) (s : Session) : Prop where
  /-- All that was received waits to be read. -/
  | pending {state : StreamState} (unestablished : s.teardown.isEstablished = false)
      (inbound : s.transport.inbound = .bytes limit received state)
      (greeted : ∀ deadline, s.writer = .greeting deadline true →
        s.transport.outbound.hasGreeted = true)
      (silent : brought = [])
  /-- The handshake was taken off the front, and then so many messages. After them there may
  have been a last read, which is the end of the connection. -/
  | concluded {peerId : PeerId} {left : List UInt8} {state : StreamState}
      {sofar last : List ReadOutcome} (established : s.teardown.isEstablished = true)
      (greeted : s.transport.outbound.hasGreeted = true)
      (opens : Handshake.Opens infoHash peerId received)
      (named : s.conversation.remoteId = some peerId)
      (inbound : s.transport.inbound = .bytes limit left state)
      (read : Stream.ReadOff limit (received.drop Handshake.size) sofar left)
      (split : brought = sofar ++ last)
      (stopped : last = [] ∨ s.teardown.hasFired = true ∧ ∃ outcome, last = [outcome] ∧
        (Inbound.bytes limit left state).poll = some (outcome, .bytes limit left state))

namespace Handover

variable {limit before : Nat} {infoHash : InfoHash} {received : List UInt8}
  {brought : List ReadOutcome}

theorem still (handover : Handover limit infoHash received brought s)
    (leaves : s.LeavesHandover s')
    (fired : s.teardown.hasFired = true → s'.teardown.hasFired = true) :
    Handover limit infoHash received brought s' := by
  cases handover with
  | pending unestablished inbound greeted silent =>
      refine .pending (leaves.established.trans unestablished) (leaves.inbound.trans inbound) ?_
        silent
      intro deadline greeting
      rcases leaves.greeting deadline greeting with already | sent
      · exact leaves.greeted (greeted deadline already)
      · exact sent
  | concluded established greeted opens named inbound read split stopped =>
      exact .concluded (leaves.established.trans established) (leaves.greeted greeted) opens
        (leaves.remoteId.trans named) (leaves.inbound.trans inbound) read split
        (stopped.imp_right (And.imp_left fired))

/-- Bytes arrive behind those that are there. -/
theorem surroundings (handover : Handover limit infoHash received brought s)
    (task : event.isTask = false) (frame : Outside s (s.after event)) :
    Handover limit infoHash (received ++ s.arrived event) brought (s.after event) := by
  cases handover with
  | pending unestablished inbound greeted silent =>
      obtain ⟨state', moved, -⟩ := inbound_after inbound task
      refine .pending (by rw [frame.teardown]; exact unestablished) moved ?_ silent
      rw [frame.writer, frame.greeted]
      exact greeted
  | @concluded peerId left state sofar last established greeted opens named inbound read split
      stopped =>
      obtain ⟨state', moved, kept, -⟩ := inbound_after inbound task
      refine .concluded (by rw [frame.teardown]; exact established)
        (by rw [frame.greeted]; exact greeted) (opens.append _)
        (by rw [frame.conversation]; exact named) moved ?_ split ?_
      · rw [List.drop_append_of_le_length opens.whole]
        exact read.arrive _
      · rcases stopped with none | ⟨fired, outcome, only, stopped⟩
        · exact .inl none
        · exact .inr ⟨by rw [frame.teardown]; exact fired, outcome, only,
            Stream.stopped_arrive stopped kept⟩

/-- The writer accepts the remote, and takes its handshake off the front. -/
theorem accept {deadline : Nat} {peerId : PeerId} {rest : List UInt8}
    (handover : Handover limit s.identity.infoHash received brought s) (wired : s.Wired before)
    (phase : s.writer = .greeting deadline true)
    (accepted : Handshake.receive s.identity.infoHash s.transport.inbound.waiting
      s.transport.inbound.hasEnded = .accepted peerId rest) :
    Handover limit s.identity.infoHash received brought (({ s with transport := { s.transport with
      inbound := s.transport.inbound.leaving rest } } : Session).establish peerId) := by
  cases handover with
  | @pending state unestablished inbound greeted silent =>
      have waiting : s.transport.inbound.waiting = received := by rw [inbound]; rfl
      rw [waiting] at accepted
      obtain ⟨opens, rfl⟩ := Handshake.receive_eq_accepted_iff.mp accepted
      have left : s.transport.inbound.leaving (received.drop Handshake.size) =
          .bytes limit (received.drop Handshake.size) state := by rw [inbound]; rfl
      exact .concluded rfl (greeted deadline phase) opens rfl left .none silent (.inl rfl)
  | concluded established =>
      obtain ⟨unestablished, -⟩ := wired.of_down (by rw [phase]; rfl)
      rw [established] at unestablished
      contradiction

/-- The reader takes up what a read brings. -/
theorem take {outcome : ReadOutcome} {rest : Inbound}
    (handover : Handover limit infoHash received brought s) (wired : s.Wired before)
    (alive : s.teardown.hasFired = false)
    (polled : s.transport.inbound.poll = some (outcome, rest)) (move : ReaderMove s s')
    (taken : s'.transport.inbound = rest)
    (ends : outcome.message? = none → s'.teardown.hasFired = true) :
    Handover limit infoHash received (brought ++ [outcome]) s' := by
  cases handover with
  | pending unestablished =>
      rw [wired.established_of_reader move.started.1] at unestablished
      contradiction
  | @concluded peerId left state sofar last established greeted opens named inbound read split
      stopped =>
      obtain ⟨standing, conversation⟩ := move.conversation_eq
      have established' := move.isEstablished_eq.trans established
      have greeted' : s'.transport.outbound.hasGreeted = true := by
        rw [move.frame.outbound]
        exact greeted
      have named' : s'.conversation.remoteId = some peerId := by
        rw [conversation]
        exact named
      -- Nobody has called for the end, so no read was the last one.
      obtain rfl : last = [] := by
        rcases stopped with none | ⟨fired, -⟩
        · exact none
        · rw [alive] at fired
          contradiction
      rw [List.append_nil] at split
      rw [inbound] at polled
      rcases Stream.poll_cases polled with ⟨message, rest', found, rfl, rfl⟩ | ⟨stops, rfl⟩
      · exact .concluded established' greeted' opens named' taken (.next read found)
          (by rw [split, List.append_nil]) (.inl rfl)
      · exact .concluded established' greeted' opens named' taken read (by rw [split])
          (.inr ⟨ends stops, outcome, rfl, polled⟩)

/-- Every event keeps a dialed connection on this course. -/
theorem after (handover : Handover limit s.identity.infoHash received brought s)
    (wired : s.Wired before) (dialed : s.transport.adopted = none) (event : Event) :
    Handover limit s.identity.infoHash (received ++ s.arrived event)
      (brought ++ s.brought event) (s.after event) := by
  have quiet : ∀ u : Session, Handover limit s.identity.infoHash received brought u →
      Handover limit s.identity.infoHash (received ++ []) (brought ++ []) u := by
    intro u same
    rwa [List.append_nil, List.append_nil]
  have move := after_move s event
  have fired := move.teardown_turn.later.fired
  generalize moved : s.after event = s' at move fired
  cases move with
  | wait stuck =>
      rw [brought_of_waiting stuck]
      exact quiet _ handover
  | outbox turn => exact quiet _ (handover.still ⟨rfl, rfl, rfl, id, fun _ => .inl⟩ id)
  | writer move =>
      rcases move.handover dialed with leaves | ⟨deadline, peerId, rest, phase, accepted, rfl⟩
      · exact quiet _ (handover.still leaves fired)
      · exact quiet _ (handover.accept wired phase accepted)
  | reader move =>
      rcases move.reads with ⟨transport, nothing⟩ | ⟨outcome, rest, alive, polled, only, taken⟩
      · rw [nothing]
        exact quiet _ (handover.still (move.leavesHandover (by rw [transport])) fired)
      · have arrived : s.arrived (.task .reader) = [] := rfl
        rw [only, arrived, List.append_nil]
        refine handover.take wired alive polled move ?_ ?_
        · rw [taken, afterRead_transport]
        · intro stops
          rw [taken]
          cases outcome with
          | message message => contradiction
          | _ => exact hasFired_failReader _ _
  | call made move =>
      exact quiet _ (handover.still ⟨move.isEstablished_eq, rfl, rfl, id, fun _ => .inl⟩ fired)
  | shutdown =>
      exact quiet _ (handover.still
        ⟨Teardown.isEstablished_trigger _ _ _, rfl, rfl, id, fun _ => .inl⟩ fired)
  | abandon made =>
      exact quiet _ (handover.still
        ⟨Teardown.isEstablished_abandon _ _, rfl, rfl, id, fun _ => .inl⟩ fired)
  | outside surroundings frame silent =>
      have unread : s.brought event = [] := by
        cases event with
        | task task => contradiction
        | _ => rfl
      rw [← moved] at frame ⊢
      rw [unread, List.append_nil]
      exact handover.surroundings surroundings frame

/-- A connection on a wire that is to be dialed starts with nothing received. -/
theorem start (settings : Settings) (identity : Identity) (addr : String) (pieces : UInt64)
    (field : Bitfield) (capacities : Capacities) (limit : Nat) (dial : Dial) :
    Handover limit identity.infoHash [] [] (Session.start settings identity addr pieces field
      capacities (.toDial limit dial)) :=
  .pending rfl rfl nofun rfl

theorem run (handover : Handover limit s.identity.infoHash [] [] s) (wired : s.Wired before)
    (dialed : s.transport.adopted = none) (history : List Event) :
    Handover limit s.identity.infoHash (s.arrivals history) (s.readOutcomes history)
      (s.run history) := by
  induction history using List.reverseRecOn with
  | nil => exact handover
  | append_singleton past event ih =>
      have adopted := (settings_run s past).2
      rw [← identity_run s past] at ih ⊢
      unfold arrivals readOutcomes at ih ⊢
      rw [run_concat, observe_concat, observe_concat]
      exact ih.after (wired.run past) (adopted.trans dialed) event

/-- What an established connection has read is the beginning of what the bytes behind the
handshake bring, and the next read goes on from there. -/
theorem delivered (handover : Handover limit infoHash received brought s)
    (established : s.teardown.isEstablished = true) :
    ∃ peerId left state further, Handshake.Opens infoHash peerId received ∧
      s.conversation.remoteId = some peerId ∧ s.transport.inbound = .bytes limit left state ∧
      Stream.outcomes limit (received.drop Handshake.size) state = brought ++ further ∧
      (s.teardown.hasFired = false →
        further.head? = s.transport.inbound.poll.map Prod.fst) := by
  cases handover with
  | pending unestablished =>
      rw [established] at unestablished
      contradiction
  | @concluded peerId left state sofar last _ _ opens named inbound read split stopped =>
      have whole := read.outcomes_eq state
      rcases stopped with rfl | ⟨fired, outcome, rfl, stopped⟩
      · refine ⟨peerId, left, state, Stream.outcomes limit left state, opens, named, inbound,
          ?_, ?_⟩
        · rw [whole, split, List.append_nil]
        · intro _
          rw [inbound]
          exact Stream.head?_outcomes _ _ _
      · refine ⟨peerId, left, state, [], opens, named, inbound, ?_, ?_⟩
        · rw [whole, split, Stream.outcomes_of_stopped stopped, List.append_nil]
        · intro alive
          rw [fired] at alive
          contradiction

end Handover

/-! ### The bytes on their way -/

/-- A frame that arrives in one piece with the end of the handshake. -/
example :
    let s := Session.start .default default "10.0.0.7:6881" 2 (.empty 2) ⟨1, 4, 4⟩
      (.toDial Settings.default.frameLimit .connected)
    let theirs := 19 :: Handshake.protocolName ++ List.replicate 48 0
    s.readOutcomes [.task .writer, .task .writer, .task .writer,
      .remoteSendsBytes (theirs.take 30), .task .writer,
      .remoteSendsBytes (theirs.drop 30 ++ [0, 0, 0, 1, 1]), .task .writer, .task .writer,
      .task .reader] = [.message .unchoke] := by
  decide +kernel

end Session

end PeerWire

import PeerWire.Proofs.Conversation
import PeerWire.Proofs.Session.Establishment
import PeerWire.Proofs.Teardown.Marker

/-!
What a connection submits to the scheduler. Blocks and piece requests are submitted before
anybody calls for the end; after it there can only come the marker of the connection's end.
`Dealings` holds the submitted work against the blocks that were heard: as long as nobody
has called for the end, what was heard and not submitted is in the reader's hands.
-/

namespace PeerWire

/-- The block that a message brings. -/
def Message.block? : Message → Option Block
  | .piece block => some block
  | _ => none

/-- The message that a read brings. -/
def ReadOutcome.message? : ReadOutcome → Option Message
  | .message heard => some heard
  | .ended | .failed _ => none

/-- The block that an errand is about. -/
def Errand.block? : Errand → Option Block
  | .deliver block => some block
  | _ => none

/-- The block that is handed over. -/
def Emission.block? : Emission → Option Block
  | .delivery (.block _ block) => some block
  | _ => none

/-- The block that is about to be handed over. -/
def Progress.block? : Progress → Option Block
  | .handing errand => errand.block?
  | .done _ => none

/-- Work for the scheduler, in the name of this connection. -/
inductive Emission.IsWork (addr : String) : Emission → Prop where
  | block (block : Block) : IsWork addr (.delivery (.block addr block))
  | request {request : PieceRequest} (own : request.addr = addr) : IsWork addr (.request request)

namespace Conversation

variable (c : Conversation) (field : Bitfield)

theorem considerRequest_block? : (c.considerRequest field).block? = none := by
  unfold considerRequest
  split
  · rfl
  · split <;> rfl

theorem afterInterest_block? (thenRequest : Bool) :
    (c.afterInterest field thenRequest).block? = none := by
  unfold afterInterest
  split
  · exact c.considerRequest_block? field
  · rfl

theorem reviewInterest_block? (thenRequest : Bool) :
    (c.reviewInterest field thenRequest).2.block? = none := by
  unfold reviewInterest
  dsimp only
  split
  · exact c.afterInterest_block? field thenRequest
  · rfl

/-- A message that brings a block has it handed over first of all. -/
theorem receive_block? (now : Nat) (message : Message) :
    (c.receive field now message).2.block? = message.block? := by
  cases message with
  | havePiece index =>
      unfold receive
      dsimp only
      split
      · rfl
      · exact reviewInterest_block? _ field true
  | bitfield bits =>
      unfold receive
      dsimp only
      split
      · rfl
      · exact reviewInterest_block? _ field true
  | unchoke => exact reviewInterest_block? _ field true
  | _ => rfl

/-- A block is handed over once, whatever comes of it. -/
theorem resume_block? (errand : Errand) (result : HandOver) :
    (c.resume field errand result).2.block? = none := by
  cases errand with
  | deliver block =>
      cases result with
      | accepted => exact c.reviewInterest_block? field true
      | _ => rfl
  | announce interested thenRequest =>
      cases result with
      | accepted => exact c.afterInterest_block? field thenRequest
      | _ => rfl
  | _ => cases result <;> rfl

end Conversation

namespace Session

/-! ### What can be seen -/

/-- What has entered the two mailboxes of the scheduler between two states. -/
def dealt (s s' : Session) : List Emission :=
  (s.teardown.deliveries.gained s'.teardown.deliveries).map .delivery ++
    (s.requests.gained s'.requests).map .request

/-- What the connection submits to the scheduler at an event. -/
def submitted (s : Session) : Event → List Emission
  | .task task => s.dealt (s.after (.task task))
  | _ => []

/-- What a read brings the reader at an event. -/
def brought (s : Session) : Event → List ReadOutcome
  | .task .reader =>
      match s.reader, s.teardown.hasFired, s.transport.inbound.poll with
      | .reading _, false, some (outcome, _) => [outcome]
      | _, _, _ => []
  | _ => []

/-- The message that the reader takes up at an event. -/
def heard (s : Session) : Event → List Message
  | .task .reader =>
      match s.reader, s.teardown.hasFired, s.transport.inbound.poll with
      | .reading _, false, some (.message message, _) => [message]
      | _, _, _ => []
  | _ => []

/-- All that the connection submits to the scheduler along a history. -/
def submissions (s : Session) (history : List Event) : List Emission :=
  observe submitted s history

/-- All that reads bring the reader along a history. -/
def readOutcomes (s : Session) (history : List Event) : List ReadOutcome :=
  observe brought s history

/-- All messages that the reader takes up along a history. -/
def messagesHeard (s : Session) (history : List Event) : List Message :=
  observe heard s history

/-- The block that the reader is handing over. -/
def blockInHand? (s : Session) : Option Block :=
  match s.reader with
  | .handling errand _ => errand.block?
  | _ => none

/-! ### What the reader submits -/

section Dealt

variable (s u : Session)

theorem dealt_self : s.dealt s = [] := by simp [dealt]

theorem dealt_of_same {u' : Session} (deliveries : u'.teardown.deliveries = u.teardown.deliveries)
    (requests : u'.requests = u.requests) : s.dealt u' = s.dealt u := by
  rw [dealt, dealt, deliveries, requests]

theorem dealt_proceed (handled : Conversation × Progress) :
    s.dealt (u.proceed handled) = s.dealt u := by
  obtain ⟨conversation, progress⟩ := handled
  cases progress with
  | done outcome =>
      cases outcome with
      | ok => rfl
      | error failure => exact dealt_of_same s u (Teardown.deliveries_trigger _ _ _) rfl
  | handing errand => rfl

theorem dealt_afterRead (outcome : ReadOutcome) : s.dealt (u.afterRead outcome) = s.dealt u := by
  cases outcome with
  | message message =>
      rw [afterRead_message]
      exact dealt_proceed s u _
  | ended => exact dealt_of_same s u (Teardown.deliveries_trigger _ _ _) rfl
  | failed failure => exact dealt_of_same s u (Teardown.deliveries_trigger _ _ _) rfl

theorem dealt_leaveLine (errand : Errand) : s.dealt (u.leaveLine errand) = s.dealt u := by
  cases errand <;> rfl

theorem dealt_stopReader : s.dealt s.stopReader = [] := by simp [dealt, stopReader]

/-- An attempt submits a block or a request, if that is what it is about and it is
accepted. -/
theorem dealt_attempt (errand : Errand) : s.dealt (s.attempt errand).2 =
    if (s.attempt errand).1 = .accepted ∧ errand.isTimed = true then
      [errand.emission s.conversation]
    else [] := by
  cases errand with
  | deliver block =>
      simp only [dealt, attempt, Mailbox.gained_self, Mailbox.gained_send]
      split <;> simp [Errand.emission, Errand.isTimed, *]
  | request remote =>
      simp only [dealt, attempt, Mailbox.gained_self, Mailbox.gained_send]
      split <;> simp [Errand.emission, Errand.isTimed, *]
  | _ => simp [dealt, attempt, Errand.isTimed]

end Dealt

/-- The reader goes where the handling stands, and so does the block in its hands. -/
theorem blockInHand?_proceed (u : Session) (handled : Conversation × Progress) :
    (u.proceed handled).blockInHand? = handled.2.block? := by
  obtain ⟨conversation, progress⟩ := handled
  cases progress with
  | done outcome => cases outcome <;> rfl
  | handing errand => rfl

theorem conversation_proceed (u : Session) (stand : Conversation × Progress) :
    (u.proceed stand).conversation = stand.1 ∧ (u.proceed stand).field = u.field := by
  obtain ⟨conversation, progress⟩ := stand
  cases progress with
  | done outcome => cases outcome <;> exact ⟨rfl, rfl⟩
  | handing errand => exact ⟨rfl, rfl⟩

/-- A timed errand is work for the scheduler. -/
theorem isWork_emission {errand : Errand} (c : Conversation) (timed : errand.isTimed = true) :
    (errand.emission c).IsWork c.addr ∧
      [errand.emission c].filterMap Emission.block? = errand.block?.toList := by
  cases errand with
  | deliver block => exact ⟨.block block, rfl⟩
  | request remote => exact ⟨.request rfl, rfl⟩
  | _ => contradiction

/-- Of the conversation, the reader changes the flags and what is known of the remote's
pieces, and nothing else. -/
theorem ReaderMove.conversation_eq {s s' : Session} (move : ReaderMove s s') :
    ∃ standing, s'.conversation = { s.conversation with standing } := by
  have resumed : ∀ (u : Session) (errand : Errand) (result : HandOver),
      u.conversation = s.conversation → ∃ standing,
        (u.resume errand result).conversation = { s.conversation with standing } := by
    intro u errand result same
    obtain ⟨amInterested, known⟩ := u.conversation.resume_fst u.field errand result
    rw [resume, (conversation_proceed _ _).1, known, same]
    exact ⟨_, rfl⟩
  cases move with
  | @read deadline outcome inbound phase alive polled =>
      cases outcome with
      | message message =>
          rw [afterRead_message, (conversation_proceed _ _).1]
          exact s.conversation.receive_fst s.field s.now message
      | _ => exact ⟨s.conversation.standing, rfl⟩
  | @handed errand deadline phase alive receipt =>
      exact resumed _ errand .accepted (attempt_conversation s errand)
  | @turnedAway errand deadline phase alive receipt =>
      exact resumed _ errand .closed (attempt_conversation s errand)
  | @expired errand deadline phase alive receipt due =>
      refine resumed _ errand .expired ?_
      rw [← attempt_conversation s errand]
      cases errand <;> rfl
  | @queued errand deadline phase alive receipt =>
      exact ⟨s.conversation.standing, attempt_conversation s errand⟩
  | _ => exact ⟨s.conversation.standing, rfl⟩

theorem ReaderMove.addr_eq {s s' : Session} (move : ReaderMove s s') :
    s'.conversation.addr = s.conversation.addr := by
  obtain ⟨standing, known⟩ := move.conversation_eq
  rw [known]

theorem hasFired_failReader (u : Session) (reason : Ending) :
    (u.failReader reason).teardown.hasFired = true :=
  Teardown.hasFired_trigger _ _ _

/-- A block that could not be handed over is the end. -/
theorem block?_of_refused (u : Session) {errand : Errand} {result : HandOver}
    (refused : result ≠ .accepted)
    (alive : (u.resume errand result).teardown.hasFired = false) : errand.block? = none := by
  cases errand with
  | deliver block =>
      have fired : (u.resume (.deliver block) result).teardown.hasFired = true := by
        cases result with
        | accepted => exact absurd rfl refused
        | _ => exact hasFired_failReader _ _
      exact absurd (fired.symm.trans alive) nofun
  | _ => rfl

theorem blockInHand?_resume (u : Session) (errand : Errand) (result : HandOver) :
    (u.resume errand result).blockInHand? = none := by
  rw [resume, blockInHand?_proceed, Conversation.resume_block?]

theorem heard_of_handling {s : Session} {errand : Errand} {deadline : Option Nat}
    (phase : s.reader = .handling errand deadline) : s.heard (.task .reader) = [] := by
  simp [heard, phase]

theorem blockInHand?_of_handling {s : Session} {errand : Errand} {deadline : Option Nat}
    (phase : s.reader = .handling errand deadline) : s.blockInHand? = errand.block? := by
  rw [blockInHand?, phase]

/-- What a step of the reader submits is work, and the block that it had in its hands goes
out first, if it goes out at all. While nobody calls for the end no block gets lost. -/
structure Deals (s s' : Session) : Prop where
  own : ∀ item ∈ s.dealt s', item.IsWork s.conversation.addr
  alive : s.dealt s' ≠ [] → s.teardown.hasFired = false ∧ s.reader ≠ .absent
  sent : (s.dealt s').filterMap Emission.block? <+: s.blockInHand?.toList
  flow : s'.teardown.hasFired = false →
    (s.dealt s').filterMap Emission.block? ++ s'.blockInHand?.toList =
      s.blockInHand?.toList ++ (s.heard (.task .reader)).filterMap Message.block?

namespace Deals

variable {s s' : Session}

theorem of_nothing (nothing : s.dealt s' = [])
    (flow : s'.teardown.hasFired = false → s'.blockInHand?.toList =
      s.blockInHand?.toList ++ (s.heard (.task .reader)).filterMap Message.block?) :
    s.Deals s' where
  own := by rw [nothing]; exact fun _ => nofun
  alive some := absurd nothing some
  sent := by rw [nothing]; exact List.nil_prefix
  flow alive := by rw [nothing]; exact flow alive

theorem of_fired (nothing : s.dealt s' = []) (fired : s'.teardown.hasFired = true) :
    s.Deals s' := by
  refine of_nothing nothing ?_
  intro alive
  rw [fired] at alive
  contradiction

theorem of_refused (u : Session) {errand : Errand} {deadline : Option Nat} {result : HandOver}
    (phase : s.reader = .handling errand deadline) (refused : result ≠ .accepted)
    (nothing : s.dealt (u.resume errand result) = []) : s.Deals (u.resume errand result) := by
  refine of_nothing nothing ?_
  intro alive
  have other := block?_of_refused u refused alive
  simp [blockInHand?_resume, blockInHand?_of_handling phase, other, heard_of_handling phase]

theorem of_handed {errand : Errand} {deadline : Option Nat}
    (phase : s.reader = .handling errand deadline) (alive : s.teardown.hasFired = false)
    (receipt : (s.attempt errand).1 = .accepted) :
    s.Deals ((s.attempt errand).2.resume errand .accepted) := by
  have items : s.dealt ((s.attempt errand).2.resume errand .accepted) =
      if errand.isTimed = true then [errand.emission s.conversation] else [] := by
    rw [resume, dealt_proceed, dealt_attempt]
    simp [receipt]
  cases timed : errand.isTimed with
  | true =>
      obtain ⟨own, brings⟩ := isWork_emission s.conversation timed
      rw [timed, if_pos rfl] at items
      constructor
      · simpa [items] using own
      · exact fun _ => ⟨alive, by simp [phase]⟩
      · rw [items, brings, blockInHand?_of_handling phase]
      · intro _
        rw [items, brings, blockInHand?_resume, blockInHand?_of_handling phase,
          heard_of_handling phase]
        rfl
  | false =>
      have other : errand.block? = none := by cases errand <;> first | rfl | contradiction
      refine of_nothing (by simpa [timed] using items) ?_
      intro _
      simp [blockInHand?_resume, blockInHand?_of_handling phase, other, heard_of_handling phase]

end Deals

/-- The reader goes on with its own call, or deals with what it has heard. -/
theorem ReaderMove.deals {s s' : Session} (move : ReaderMove s s') (life : s.Lifecycle) :
    (∃ call teardown, s.teardown.CallMove call s.now teardown ∧ s' = { s with teardown } ∧
      s.heard (.task .reader) = []) ∨ s.Deals s' := by
  cases move with
  | cut phase fired => exact .inr (.of_fired (dealt_stopReader s) fired)
  | released phase ended =>
      exact .inr (.of_fired (dealt_stopReader s) (life.reader (by rw [phase]; rfl)))
  | @calling call teardown phase move =>
      exact .inl ⟨call, teardown, move, rfl, by simp [heard, phase]⟩
  | @read deadline outcome inbound phase alive polled =>
      have nothing := (dealt_afterRead s { s with transport := { s.transport with inbound } }
        outcome).trans (dealt_self s)
      cases outcome with
      | message message =>
          refine .inr (.of_nothing nothing ?_)
          intro _
          have inHand : s.blockInHand? = none := by rw [blockInHand?, phase]
          rw [afterRead_message, blockInHand?_proceed, Conversation.receive_block?, inHand, heard,
            phase, alive, polled]
          cases message <;> rfl
      | _ => exact .inr (.of_fired nothing (hasFired_failReader _ _))
  | starved phase alive due =>
      exact .inr (.of_fired ((dealt_afterRead s s _).trans (dealt_self s))
        (hasFired_failReader _ _))
  | handed phase alive receipt => exact .inr (.of_handed phase alive receipt)
  | turnedAway phase alive receipt =>
      refine .inr (.of_refused _ phase (by simp) ?_)
      rw [resume, dealt_proceed, dealt_attempt]
      simp [receipt]
  | expired phase alive receipt due =>
      refine .inr (.of_refused _ phase (by simp) ?_)
      rw [resume, dealt_proceed, dealt_leaveLine, dealt_attempt]
      simp [receipt]
  | queued phase alive receipt =>
      refine .inr (.of_nothing (by rw [dealt_attempt]; simp [receipt]) ?_)
      intro _
      simp [blockInHand?, heard_of_handling phase]

/-- The writer leaves the scheduler alone, unless it makes a step of its own call. -/
theorem WriterMove.dealt {s s' : Session} (move : WriterMove s s') :
    (∃ call teardown, s.teardown.CallMove call s.now teardown ∧ s' = { s with teardown }) ∨
      s.dealt s' = [] ∧ s'.conversation.addr = s.conversation.addr := by
  have same : ∀ u : Session, u.teardown.deliveries = s.teardown.deliveries →
      u.requests = s.requests → s.dealt u = [] := by
    intro u deliveries requests
    rw [dealt_of_same s s deliveries requests, dealt_self]
  cases move with
  | @calling call up teardown phase move => exact .inl ⟨call, teardown, move, rfl⟩
  | abort => exact .inr ⟨same _ (Teardown.deliveries_trigger _ _ _) rfl, rfl⟩
  | failed => exact .inr ⟨same _ (Teardown.deliveries_trigger _ _ _) rfl, rfl⟩
  | dryUp => exact .inr ⟨same _ (Teardown.deliveries_trigger _ _ _) rfl, rfl⟩
  | @released call up => cases up <;> exact .inr ⟨same _ rfl rfl, rfl⟩
  | _ => exact .inr ⟨same _ rfl rfl, rfl⟩

/-- The writer starts the reader, and does nothing else to it. -/
theorem WriterMove.blockInHand?_eq {s s' : Session} (move : WriterMove s s')
    (life : s.Lifecycle) : s'.blockInHand? = s.blockInHand? := by
  cases move with
  | announced phase unbroken =>
      have absent := life.unread (by rw [phase]; rfl)
      rw [blockInHand?, blockInHand?, absent]
  | @released call up => cases up <;> rfl
  | _ => rfl

/-- What is heard are the messages among all that reads bring. -/
theorem heard_eq (s : Session) (event : Event) :
    s.heard event = (s.brought event).filterMap ReadOutcome.message? := by
  unfold heard brought
  split
  · cases s.reader with
    | reading deadline =>
        cases s.teardown.hasFired with
        | true => rfl
        | false =>
            cases s.transport.inbound.poll with
            | none => rfl
            | some read =>
                obtain ⟨outcome, inbound⟩ := read
                cases outcome <;> rfl
    | _ => rfl
  · rfl

theorem brought_of_reading {s : Session} {deadline : Option Nat}
    (phase : s.reader = .reading deadline) (alive : s.teardown.hasFired = false) :
    s.brought (.task .reader) = (s.transport.inbound.poll.map Prod.fst).toList := by
  cases polled : s.transport.inbound.poll <;> simp [brought, phase, alive, polled]

theorem brought_of_unread {s : Session} (other : ∀ deadline, s.reader ≠ .reading deadline) :
    s.brought (.task .reader) = [] := by
  cases phase : s.reader with
  | reading deadline => exact absurd phase (other deadline)
  | _ => simp [brought, phase]

/-- A reader that has to wait is brought nothing. -/
theorem brought_of_waiting {s : Session} {task : Task} (waiting : s.step task = none) :
    s.brought (.task task) = [] := by
  cases task with
  | reader =>
      cases phase : s.reader with
      | reading deadline =>
          cases alive : s.teardown.hasFired with
          | true => simp [step, stepReader, stepRead, phase, alive] at waiting
          | false =>
              rw [brought_of_reading phase alive]
              cases polled : s.transport.inbound.poll with
              | none => rfl
              | some read => simp [step, stepReader, stepRead, phase, alive, polled] at waiting
      | _ => exact brought_of_unread (by simp [phase])
  | _ => rfl

theorem heard_of_waiting {s : Session} {task : Task} (waiting : s.step task = none) :
    s.heard (.task task) = [] := by
  rw [heard_eq, brought_of_waiting waiting]
  rfl

/-! ### The books -/

/-- What a connection has submitted, against the blocks that it has heard. Work is
submitted before anybody calls for the end, and the marker after that. -/
structure Dealings (s : Session) (heard : List Block) (work marker : List Emission) : Prop where
  addr : s.conversation.addr = s.teardown.addr
  own : ∀ item ∈ work, item.IsWork s.teardown.addr
  blocks : work.filterMap Emission.block? <+: heard
  /-- Until then, what is heard and not submitted is in the reader's hands. -/
  inHand : s.teardown.hasFired = false →
    work.filterMap Emission.block? ++ s.blockInHand?.toList = heard
  closing : marker = [] ∨ marker = [.delivery (.disconnected s.teardown.addr)] ∧
    s.teardown.hasFired = true ∧ ¬ s.teardown.IsMarking
  marking : s.teardown.IsMarking → s.teardown.isEstablished = true
  established : work ++ marker ≠ [] → s.teardown.isEstablished = true

namespace Dealings

variable {s s' : Session} {heard : List Block} {work marker : List Emission}
  {dropped : Nat → Prop} {more : List ExitReport} {before : Nat}

theorem start (settings : Settings) (identity : Identity) (addr : String) (pieces : UInt64)
    (field : Bitfield) (capacities : Capacities) (transport : Transport) :
    (Session.start settings identity addr pieces field capacities transport).Dealings [] [] [] where
  addr := rfl
  own := nofun
  blocks := List.prefix_rfl
  inHand _ := rfl
  closing := .inl rfl
  marking marking := by
    obtain ⟨reason, deadline, found⟩ := marking
    contradiction
  established some := absurd rfl some

/-- Nobody has called for the end before the event, if nobody has after it. -/
theorem alive_before (turn : s.teardown.Turn s.now dropped more s'.teardown)
    (alive : s'.teardown.hasFired = false) : s.teardown.hasFired = false := by
  by_contra torn
  rw [turn.later.fired (by simpa using torn)] at alive
  contradiction

theorem marker_of_alive (dealings : s.Dealings heard work marker)
    (alive : s.teardown.hasFired = false) : marker = [] := by
  rcases dealings.closing with none | ⟨-, fired, -⟩
  · exact none
  · rw [alive] at fired
    contradiction

theorem marker_of_isMarking (dealings : s.Dealings heard work marker)
    (marking : s.teardown.IsMarking) : marker = [] := by
  rcases dealings.closing with none | ⟨-, -, settled⟩
  · exact none
  · exact absurd marking settled

/-- The reader hears and submits what it has in its hands, or finds an end. -/
theorem deal (dealings : s.Dealings heard work marker) (one : s.teardown.OneShot)
    (turn : s.teardown.Turn s.now dropped more s'.teardown)
    (established : s.teardown.isEstablished = true → s'.teardown.isEstablished = true)
    (addr : s'.conversation.addr = s.conversation.addr) {items : List Emission}
    {new : List Block} (up : items ≠ [] → s.teardown.isEstablished = true)
    (alive : items ≠ [] → s.teardown.hasFired = false)
    (own : ∀ item ∈ items, item.IsWork s.teardown.addr)
    (sent : items.filterMap Emission.block? <+: s.blockInHand?.toList)
    (flow : s'.teardown.hasFired = false →
      items.filterMap Emission.block? ++ s'.blockInHand?.toList =
        s.blockInHand?.toList ++ new) :
    s'.Dealings (heard ++ new) (work ++ items) marker where
  addr := addr.trans (dealings.addr.trans turn.addr_eq.symm)
  own item inside := by
    rw [turn.addr_eq]
    rcases List.mem_append.mp inside with old | now
    · exact dealings.own item old
    · exact own item now
  blocks := by
    rw [List.filterMap_append]
    by_cases some : items = []
    · rw [some, List.filterMap_nil, List.append_nil]
      exact dealings.blocks.trans (List.prefix_append _ _)
    · rw [← dealings.inHand (alive some), List.append_assoc]
      exact (List.prefix_append_right_inj _).mpr (sent.trans (List.prefix_append _ _))
  inHand alive' := by
    rw [List.filterMap_append, List.append_assoc, flow alive', ← List.append_assoc,
      dealings.inHand (alive_before turn alive')]
  closing := by
    rw [turn.addr_eq]
    refine dealings.closing.imp_right ?_
    rintro ⟨marked, fired, settled⟩
    refine ⟨marked, turn.later.fired fired, ?_⟩
    intro marking
    rcases turn.isMarking one marking with before | ⟨unfired, -⟩
    · exact settled before
    · rw [fired] at unfired
      contradiction
  marking marking := by
    rcases turn.isMarking one marking with before | ⟨-, now⟩
    · exact established (dealings.marking before)
    · exact now
  established some := by
    by_cases none : items = []
    · rw [none, List.append_nil] at some
      exact established (dealings.established some)
    · exact established (up none)

/-- Nothing is heard, and nothing submitted. -/
theorem quiet (dealings : s.Dealings heard work marker) (one : s.teardown.OneShot)
    (turn : s.teardown.Turn s.now dropped more s'.teardown)
    (established : s.teardown.isEstablished = true → s'.teardown.isEstablished = true)
    (addr : s'.conversation.addr = s.conversation.addr)
    (inHand : s'.teardown.hasFired = false → s'.blockInHand? = s.blockInHand?) :
    s'.Dealings heard work marker := by
  have same : s'.Dealings (heard ++ []) (work ++ []) marker :=
    dealings.deal one turn established addr (absurd rfl ·) (absurd rfl ·) nofun List.nil_prefix
      (fun alive => by rw [inHand alive]; simp)
  rwa [List.append_nil, List.append_nil] at same

/-- A step of a call may be the one with which the marker is accepted. -/
theorem call {number : Nat} (dealings : s.Dealings heard work marker)
    (one : s.teardown.OneShot) (move : s.teardown.CallMove number s.now s'.teardown)
    (conversation : s'.conversation = s.conversation) (reader : s'.reader = s.reader)
    (requests : s'.requests = s.requests) :
    s'.Dealings heard work (marker ++ s.dealt s') := by
  have turn : s.teardown.Turn s.now (fun _ => False) _ s'.teardown := .call move
  have still : s'.Dealings heard work marker :=
    dealings.quiet one turn (fun up => move.isEstablished_eq.trans up) (by rw [conversation])
      (fun _ => by rw [blockInHand?, blockInHand?, reader])
  have deliveries : s.dealt s' =
      (s.teardown.deliveries.gained s'.teardown.deliveries).map .delivery := by
    simp [dealt, requests]
  rw [deliveries]
  rcases move.marker one with ⟨how, settled⟩ | ⟨nothing, -⟩
  · rw [settled.entered]
    have none := dealings.marker_of_isMarking settled.isMarking
    have up := move.isEstablished_eq.trans (dealings.marking settled.isMarking)
    have fired := move.later.fired (one.hasFired_of_isMarking settled.isMarking)
    subst none
    cases how with
    | accepted =>
        exact { still with
          closing := .inr ⟨by rw [move.addr_eq]; rfl, fired, settled.not_isMarking⟩
          established := fun _ => up }
    | _ => exact still
  · rw [nothing]
    simpa using still

/-- A step of the reader. -/
theorem reader (dealings : s.Dealings heard work marker) (life : s.Lifecycle)
    (wired : s.Wired before) (move : ReaderMove s s') :
    ∃ work' marker', work ++ marker ++ s.dealt s' = work' ++ marker' ∧
      s'.Dealings (heard ++ (s.heard (.task .reader)).filterMap Message.block?) work' marker' := by
  rcases move.deals life with ⟨call, teardown, called, rfl, unheard⟩ | deals
  · refine ⟨work, marker ++ s.dealt { s with teardown }, List.append_assoc _ _ _, ?_⟩
    rw [unheard, List.filterMap_nil, List.append_nil]
    exact dealings.call life.oneShot called rfl rfl rfl
  · have turn : s.teardown.Turn s.now (fun _ => False) _ s'.teardown := move.teardown_turn
    have dealt : s'.Dealings (heard ++ (s.heard (.task .reader)).filterMap Message.block?)
        (work ++ s.dealt s') marker :=
      dealings.deal life.oneShot turn (fun up => move.isEstablished_eq.trans up) move.addr_eq
        (fun some => wired.established_of_reader (deals.alive some).2)
        (fun some => (deals.alive some).1) (by rw [← dealings.addr]; exact deals.own)
        deals.sent deals.flow
    by_cases nothing : s.dealt s' = []
    · rw [nothing, List.append_nil] at dealt ⊢
      exact ⟨work, marker, rfl, dealt⟩
    · obtain rfl := dealings.marker_of_alive (deals.alive nothing).1
      exact ⟨work ++ s.dealt s', [], by simp, dealt⟩

/-- Whatever happens, the books stay in order. -/
theorem after (dealings : s.Dealings heard work marker) (life : s.Lifecycle)
    (wired : s.Wired before) (event : Event) :
    ∃ work' marker', work ++ marker ++ s.submitted event = work' ++ marker' ∧
      (s.after event).Dealings (heard ++ (s.heard event).filterMap Message.block?)
        work' marker' := by
  have move := after_move s event
  have established : s.teardown.isEstablished = true →
      (s.after event).teardown.isEstablished = true := by
    intro up
    rcases move.isEstablished with same | ⟨-, -, -, -, now⟩
    · exact same.trans up
    · exact now
  have silent : s.submitted event = [] → s.heard event = [] →
      (s.after event).conversation.addr = s.conversation.addr →
      ((s.after event).teardown.hasFired = false →
        (s.after event).blockInHand? = s.blockInHand?) →
      ∃ work' marker', work ++ marker ++ s.submitted event = work' ++ marker' ∧
        (s.after event).Dealings (heard ++ (s.heard event).filterMap Message.block?)
          work' marker' := by
    intro nothing unheard addr inHand
    refine ⟨work, marker, by rw [nothing, List.append_nil], ?_⟩
    rw [unheard, List.filterMap_nil, List.append_nil]
    exact dealings.quiet life.oneShot move.teardown_turn established addr inHand
  have calling : ∀ (task : Task) (number : Nat) (teardown : Teardown), event = .task task →
      s.teardown.CallMove number s.now teardown → s.after event = { s with teardown } →
      s.heard event = [] →
      ∃ work' marker', work ++ marker ++ s.submitted event = work' ++ marker' ∧
        (s.after event).Dealings (heard ++ (s.heard event).filterMap Message.block?)
          work' marker' := by
    rintro task number teardown rfl call next unheard
    refine ⟨work, marker ++ s.submitted (.task task), List.append_assoc _ _ _, ?_⟩
    rw [unheard, List.filterMap_nil, List.append_nil, submitted, next]
    exact dealings.call life.oneShot call rfl rfl rfl
  generalize next : s.after event = s' at *
  cases move with
  | @wait task stuck =>
      refine silent ?_ (heard_of_waiting stuck) rfl fun _ => rfl
      rw [submitted, next, dealt_self]
  | outbox turn =>
      refine silent ?_ rfl rfl fun _ => rfl
      rw [submitted, next]
      exact dealt_self s
  | writer move =>
      rcases move.dealt with ⟨number, teardown, call, rfl⟩ | ⟨nothing, addr⟩
      · exact calling .writer number teardown rfl call rfl rfl
      · refine silent ?_ rfl addr fun _ => move.blockInHand?_eq life
        rw [submitted, next, nothing]
  | reader move =>
      rw [submitted, next]
      exact dealings.reader life wired move
  | @call number teardown made move => exact calling (.call number) number teardown rfl move rfl rfl
  | shutdown => exact silent rfl rfl rfl fun _ => rfl
  | abandon made => exact silent rfl rfl rfl fun _ => rfl
  | outside surroundings frame unreported =>
      refine silent ?_ ?_ (by rw [frame.conversation]) fun _ => ?_
      · cases event with
        | task task => contradiction
        | _ => rfl
      · cases event with
        | task task => contradiction
        | _ => rfl
      · rw [blockInHand?, blockInHand?, frame.reader]

end Dealings

end Session

end PeerWire

import PeerWire.Proofs.Conversation.Known
import PeerWire.Proofs.Session.Dealings
import PeerWire.Proofs.Session.InboundStream

/-!
What the status of a connection shows, and when. Handling a message changes the conversation
step by step, with hand-overs in between, and the status is brought up to date at the end
only. So what can be seen is never a state in the middle of a handling: it is the state in
which the remote became known, or the one in which some handling came to its end, the latest
of them. A handling that a teardown cuts off never comes to its end, and what it had changed
by then is never seen.

`milestones` lists those states along a history, without a look at the status. `Shows` holds
the status against them, whatever happens.
-/

namespace PeerWire

/-- A message is being handled. -/
def ReaderPhase.isHandling : ReaderPhase → Bool
  | .handling _ _ => true
  | _ => false

/-- Messages that were handled to their end one after the other, from the conversation
`first` on, and the conversation after each of them. All but the last were handled without a
failure; `outcome` is what came of the last. -/
inductive Conversation.Handles (first : Conversation) :
    List Message → List Conversation → Except Failure Unit → Prop where
  | none : Handles first [] [] (.ok ())
  | next {messages : List Message} {states : List Conversation} {message : Message}
      {c : Conversation} {outcome : Except Failure Unit}
      (before : Handles first messages states (.ok ()))
      (handled : (states.getLastD first).Underway message (c, .done outcome)) :
      Handles first (messages ++ [message]) (states ++ [c]) outcome

namespace Session

/-! ### What there is to show -/

/-- Whether an event completes something: the remote becomes known, or the handling of a
message comes to its end. -/
def completes (s : Session) : Event → Bool
  | .task .writer => !s.teardown.isEstablished && (s.after (.task .writer)).teardown.isEstablished
  | .task .reader =>
      !s.teardown.hasFired && (s.reader.isHandling || !(s.heard (.task .reader)).isEmpty) &&
        !(s.after (.task .reader)).reader.isHandling
  | _ => false

/-- The state in which an event leaves the conversation, if it completes something. -/
def completed (s : Session) (event : Event) : List Conversation :=
  if s.completes event then [(s.after event).conversation] else []

/-- The states of the conversation that there were to show along a history: the one in which
the remote became known, and the one after each message that was handled to its end. -/
def milestones (s : Session) (history : List Event) : List Conversation :=
  observe completed s history

/-- What others see when there were these states to show. -/
def latest (states : List Conversation) : Status :=
  (states.getLast?.map Conversation.status).getD {}

theorem latest_cons (first : Conversation) (rest : List Conversation) :
    latest (first :: rest) = (rest.getLastD first).status := by
  rw [latest, List.getLast?_cons, List.getLastD_eq_getLast?]
  rfl

theorem latest_concat (states : List Conversation) (c : Conversation) :
    latest (states ++ [c]) = c.status := by
  simp [latest]

section Completed

variable {s s' : Session}

theorem completed_writer (moved : s.after (.task .writer) = s') :
    s.completed (.task .writer) =
      if !s.teardown.isEstablished && s'.teardown.isEstablished then [s'.conversation] else [] := by
  rw [← moved]
  rfl

theorem completed_reader (moved : s.after (.task .reader) = s') :
    s.completed (.task .reader) =
      if !s.teardown.hasFired && (s.reader.isHandling || !(s.heard (.task .reader)).isEmpty) &&
        !s'.reader.isHandling then [s'.conversation] else [] := by
  rw [← moved]
  rfl

/-- A task that has to wait completes nothing. -/
theorem completed_of_waiting {task : Task} (waiting : s.step task = none) :
    s.completed (.task task) = [] := by
  have same : s.after (.task task) = s := by simp [after, waiting]
  cases task with
  | writer => simp [completed_writer same]
  | reader => simp [completed_reader same, heard_of_waiting waiting]
  | _ => rfl

/-- The end of a handling, or its beginning when that is the end as well. -/
theorem completed_of_handling (moved : s.after (.task .reader) = s')
    (alive : s.teardown.hasFired = false)
    (handling : s.reader.isHandling = true ∨ s.heard (.task .reader) ≠ []) :
    s.completed (.task .reader) = if s'.reader.isHandling then [] else [s'.conversation] := by
  have begun : (s.reader.isHandling || !(s.heard (.task .reader)).isEmpty) = true := by
    rcases handling with already | new
    · simp [already]
    · simp [new]
  rw [completed_reader moved, alive, begun]
  cases s'.reader.isHandling <;> rfl

/-- Where no message is taken up or being handled, none is handled to its end. -/
theorem completed_of_idle (idle : s.reader.isHandling = false)
    (silent : s.heard (.task .reader) = []) : s.completed (.task .reader) = [] := by
  simp [completed, completes, idle, silent]

/-- Nothing comes to its end, and no remote becomes known, once somebody has called for the
end. -/
theorem completed_of_fired (fired : s.teardown.hasFired = true) (event : Event) :
    s.completed event = [] := by
  have settled : (s.after event).teardown.isEstablished = s.teardown.isEstablished :=
    (isEstablished_run_of_fired fired [event]).2
  cases event with
  | task task =>
      cases task with
      | writer => simp [completed, completes, settled]
      | reader => simp [completed, completes, fired]
      | _ => rfl
  | _ => rfl

theorem heard_of_fired (fired : s.teardown.hasFired = true) : s.heard (.task .reader) = [] := by
  unfold heard
  rw [fired]
  split <;> simp_all

theorem isHandling_of_handling {errand : Errand} {deadline : Option Nat}
    (phase : s.reader = .handling errand deadline) : s.reader.isHandling = true := by
  rw [phase]
  rfl

end Completed

/-! ### What the status shows -/

/-- The writer makes the remote known, once, and shows that at once. It starts the reader,
and has nothing else to do with what can be seen. -/
theorem WriterMove.introduces {s s' : Session} {before : Nat} (move : WriterMove s s')
    (life : s.Lifecycle) (wired : s.Wired before) :
    (s.teardown.isEstablished = false ∧ s'.teardown.isEstablished = true ∧ s'.reader = .absent ∧
        s'.status = s'.conversation.status ∧
        ∃ peerId, s'.conversation = s.conversation.setRemoteId peerId) ∨
      (s'.teardown.isEstablished = s.teardown.isEstablished ∧ s'.conversation = s.conversation ∧
        s'.status = s.status ∧ (s'.reader = s.reader ∨
          s.teardown.isEstablished = true ∧ s.reader = .absent ∧
            ∃ deadline, s'.reader = .reading deadline)) := by
  cases move with
  | @adopt peerId phase =>
      obtain ⟨unestablished, absent, -⟩ := wired.of_down (by rw [phase]; rfl)
      exact .inl ⟨unestablished, rfl, absent, rfl, peerId, rfl⟩
  | @welcome deadline peerId rest phase =>
      obtain ⟨unestablished, absent, -⟩ := wired.of_down (by rw [phase]; rfl)
      exact .inl ⟨unestablished, rfl, absent, rfl, peerId, rfl⟩
  | announced phase =>
      obtain ⟨established, -⟩ := wired.of_up (by rw [phase]; rfl)
      have absent := life.unread (by rw [phase]; rfl)
      exact .inr ⟨rfl, rfl, rfl, .inr ⟨established, absent, _, rfl⟩⟩
  | abort => exact .inr ⟨Teardown.isEstablished_trigger _ _ _, rfl, rfl, .inl rfl⟩
  | failed => exact .inr ⟨Teardown.isEstablished_trigger _ _ _, rfl, rfl, .inl rfl⟩
  | dryUp => exact .inr ⟨Teardown.isEstablished_trigger _ _ _, rfl, rfl, .inl rfl⟩
  | @released call up => cases up <;> exact .inr ⟨rfl, rfl, rfl, .inl rfl⟩
  | calling phase move => exact .inr ⟨move.isEstablished_eq, rfl, rfl, .inl rfl⟩
  | _ => exact .inr ⟨rfl, rfl, rfl, .inl rfl⟩

/-- A reader that takes steps has not come to its end. -/
theorem ReaderMove.unfinished {s s' : Session} (move : ReaderMove s s') :
    s.reader ≠ .finished := by
  intro finished
  cases move.turn with
  | onward before => simp [finished, ReaderPhase.isAtWork] at before
  | failed before => simp [finished, ReaderPhase.isAtWork] at before
  | stopped before => simp [finished, ReaderPhase.isAtWork] at before
  | calling before => simp [finished] at before

theorem attempt_visible (s : Session) (errand : Errand) :
    (s.attempt errand).2.status = s.status ∧
      (s.attempt errand).2.teardown.isEstablished = s.teardown.isEstablished := by
  cases errand <;> exact ⟨rfl, rfl⟩

theorem leaveLine_visible (s : Session) (errand : Errand) :
    (s.leaveLine errand).conversation = s.conversation ∧
      (s.leaveLine errand).status = s.status ∧
      (s.leaveLine errand).teardown.isEstablished = s.teardown.isEstablished := by
  cases errand <;> exact ⟨rfl, rfl, rfl⟩

/-- What the status shows after the `states` that there were to show, and how they came about
from the messages `heard`. -/
inductive Shows (addr : String) (pieces : UInt64) (s : Session) :
    List Conversation → List Message → Prop where
  /-- The remote is not known. -/
  | unseen (absent : s.reader = .absent) (unestablished : s.teardown.isEstablished = false)
      (fresh : s.conversation = .start addr pieces 0) (shown : s.status = {}) :
      Shows addr pieces s [] []
  /-- No message is being handled, and none was cut off. -/
  | settled {peerId : PeerId} {messages : List Message} {states : List Conversation}
      {outcome : Except Failure Unit} (idle : s.reader.isHandling = false)
      (established : s.teardown.isEstablished = true)
      (handled : (acquainted addr pieces peerId).Handles messages states outcome)
      (unfailed : s.reader.isEnding = false → outcome = .ok ())
      (current : s.conversation = states.getLastD (acquainted addr pieces peerId))
      (shown : s.status = s.conversation.status) :
      Shows addr pieces s (acquainted addr pieces peerId :: states) messages
  | underway {peerId : PeerId} {messages : List Message} {message : Message}
      {states : List Conversation} {errand : Errand} {deadline : Option Nat}
      (phase : s.reader = .handling errand deadline)
      (handled : (acquainted addr pieces peerId).Handles messages states (.ok ()))
      (handling : (states.getLastD (acquainted addr pieces peerId)).Underway message
        (s.conversation, .handing errand))
      (shown : s.status = (states.getLastD (acquainted addr pieces peerId)).status) :
      Shows addr pieces s (acquainted addr pieces peerId :: states) (messages ++ [message])
  /-- A teardown has cut off the handling of a message. -/
  | cut {peerId : PeerId} {messages : List Message} {message : Message}
      {states : List Conversation} (phase : s.reader = .finished)
      (handled : (acquainted addr pieces peerId).Handles messages states (.ok ()))
      (shown : s.status = (states.getLastD (acquainted addr pieces peerId)).status) :
      Shows addr pieces s (acquainted addr pieces peerId :: states) (messages ++ [message])

namespace Shows

variable {s s' : Session} {addr : String} {pieces : UInt64} {states : List Conversation}
  {heard : List Message}

/-- Nothing that the status depends on has changed. -/
theorem still (shows : Shows addr pieces s states heard) (reader : s'.reader = s.reader)
    (established : s'.teardown.isEstablished = s.teardown.isEstablished)
    (conversation : s'.conversation = s.conversation) (status : s'.status = s.status) :
    Shows addr pieces s' states heard := by
  cases shows with
  | unseen absent unestablished fresh shown =>
      exact .unseen (reader.trans absent) (established.trans unestablished)
        (conversation.trans fresh) (status.trans shown)
  | settled idle up handled unfailed current shown =>
      refine .settled (reader ▸ idle) (established.trans up) handled ?_
        (conversation.trans current) (by rw [status, conversation]; exact shown)
      rw [reader]
      exact unfailed
  | underway phase handled handling shown =>
      exact .underway (reader.trans phase) handled (by rw [conversation]; exact handling)
        (status.trans shown)
  | cut phase handled shown => exact .cut (reader.trans phase) handled (status.trans shown)

/-- The writer adds the first milestone, and starts a reader that has nothing in hand. -/
theorem writer {before : Nat} (shows : Shows addr pieces s states heard) (life : s.Lifecycle)
    (wired : s.Wired before) (move : WriterMove s s')
    (moved : s.after (.task .writer) = s') :
    Shows addr pieces s' (states ++ s.completed (.task .writer)) heard := by
  rw [completed_writer moved]
  rcases move.introduces life wired with ⟨unestablished, established, absent, shown, named⟩ |
      ⟨established, conversation, status, reader⟩
  · obtain ⟨peerId, named⟩ := named
    rw [unestablished, established]
    cases shows with
    | unseen _ _ fresh =>
        have first : s'.conversation = acquainted addr pieces peerId := by
          rw [named, fresh]
          rfl
        rw [first]
        exact .settled (by rw [absent]; rfl) established .none (fun _ => rfl) first shown
    | settled _ up =>
        rw [up] at unestablished
        contradiction
    | underway phase =>
        rw [wired.established_of_reader (by simp [phase])] at unestablished
        contradiction
    | cut phase =>
        rw [wired.established_of_reader (by simp [phase])] at unestablished
        contradiction
  · rw [established, Bool.not_and_self, if_neg Bool.false_ne_true, List.append_nil]
    rcases reader with same | ⟨up, absent, deadline, begun⟩
    · exact shows.still same established conversation status
    · cases shows with
      | unseen _ unestablished =>
          rw [up] at unestablished
          contradiction
      | settled idle _ handled unfailed current shown =>
          exact .settled (by rw [begun]; rfl) (established.trans up) handled
            (fun _ => unfailed (by rw [absent]; rfl)) (conversation.trans current)
            (by rw [status, conversation]; exact shown)
      | underway phase => simp [absent] at phase
      | cut phase => simp [absent] at phase

/-- The reader goes where the handling of a message stands; the status follows when that is
the end of it. -/
theorem proceed {u : Session} {peerId : PeerId} {messages : List Message} {message : Message}
    {states : List Conversation} {stand : Conversation × Progress}
    (established : u.teardown.isEstablished = true)
    (handled : (acquainted addr pieces peerId).Handles messages states (.ok ()))
    (handling : (states.getLastD (acquainted addr pieces peerId)).Underway message stand)
    (shown : u.status = (states.getLastD (acquainted addr pieces peerId)).status) :
    Shows addr pieces (u.proceed stand) (acquainted addr pieces peerId :: states ++
      if (u.proceed stand).reader.isHandling then [] else [(u.proceed stand).conversation])
      (messages ++ [message]) := by
  obtain ⟨c, progress⟩ := stand
  cases progress with
  | handing errand =>
      have going : (u.proceed (c, .handing errand)).reader.isHandling = true := rfl
      rw [if_pos going, List.append_nil]
      exact .underway rfl handled handling shown
  | done outcome =>
      have last : c = (states ++ [c]).getLastD (acquainted addr pieces peerId) := by simp
      cases outcome with
      | ok => exact .settled rfl established (handled.next handling) (fun _ => rfl) last rfl
      | error failure =>
          refine .settled rfl ?_ (handled.next handling) nofun last rfl
          exact (Teardown.isEstablished_trigger _ _ _).trans established

/-- The reader comes to the end of its task without a message in hand. -/
theorem leave {peerId : PeerId} {messages : List Message} {states : List Conversation}
    {outcome : Except Failure Unit} (established : s'.teardown.isEstablished = true)
    (handled : (acquainted addr pieces peerId).Handles messages states outcome)
    (current : s.conversation = states.getLastD (acquainted addr pieces peerId))
    (shown : s.status = s.conversation.status) (ending : s'.reader.isEnding = true)
    (conversation : s'.conversation = s.conversation) (status : s'.status = s.status) :
    Shows addr pieces s' (acquainted addr pieces peerId :: states) messages := by
  refine .settled ?_ established handled ?_ (conversation.trans current) ?_
  · cases phase : s'.reader with
    | handling errand deadline =>
        rw [phase] at ending
        contradiction
    | _ => rfl
  · rw [ending]
    exact nofun
  · rw [status, conversation]
    exact shown

/-- A handling goes on after a hand-over. -/
theorem resume {peerId : PeerId} {messages : List Message} {message : Message}
    {states : List Conversation} {errand : Errand} {deadline : Option Nat} {u : Session}
    {result : HandOver} (phase : s.reader = .handling errand deadline)
    (alive : s.teardown.hasFired = false) (established : u.teardown.isEstablished = true)
    (handled : (acquainted addr pieces peerId).Handles messages states (.ok ()))
    (handling : (states.getLastD (acquainted addr pieces peerId)).Underway message
      (s.conversation, .handing errand))
    (shown : u.status = (states.getLastD (acquainted addr pieces peerId)).status)
    (conversation : u.conversation = s.conversation)
    (moved : s.after (.task .reader) = u.resume errand result) :
    Shows addr pieces (u.resume errand result)
      (acquainted addr pieces peerId :: states ++ s.completed (.task .reader))
      (messages ++ [message] ++ s.heard (.task .reader)) := by
  rw [heard_of_handling phase, List.append_nil,
    completed_of_handling moved alive (.inl (isHandling_of_handling phase))]
  refine .proceed established handled ?_ shown
  rw [conversation]
  exact handling.goOn u.field result

/-- The reader adds a milestone when the handling of a message comes to its end. -/
theorem reader {before : Nat} (shows : Shows addr pieces s states heard)
    (wired : s.Wired before) (move : ReaderMove s s') (moved : s.after (.task .reader) = s') :
    Shows addr pieces s' (states ++ s.completed (.task .reader))
      (heard ++ s.heard (.task .reader)) := by
  have up := wired.established_of_reader move.started.1
  have established : s'.teardown.isEstablished = true := move.isEstablished_eq.trans up
  cases shows with
  | unseen absent => exact absurd absent move.started.1
  | @settled peerId messages states outcome idle _ handled unfailed current shown =>
      -- Without a message to take up, the reader can only come to its end.
      have quiet : s.heard (.task .reader) = [] → s'.reader.isEnding = true →
          s'.conversation = s.conversation → s'.status = s.status →
          Shows addr pieces s' (acquainted addr pieces peerId :: states ++
            s.completed (.task .reader)) (heard ++ s.heard (.task .reader)) := by
        intro silent ending conversation status
        rw [completed_of_idle idle silent, silent, List.append_nil, List.append_nil]
        exact leave established handled current shown ending conversation status
      have unhandled : ∀ errand deadline, s.reader ≠ .handling errand deadline := by
        intro errand deadline phase
        rw [isHandling_of_handling phase] at idle
        contradiction
      cases move with
      | cut _ fired => exact quiet (heard_of_fired fired) rfl rfl rfl
      | @read deadline outcome inbound phase alive polled =>
          cases outcome with
          | message message =>
              have good := unfailed (by rw [phase]; rfl)
              subst good
              have taken : s.heard (.task .reader) = [message] := by
                simp [Session.heard, phase, alive, polled]
              rw [completed_of_handling moved alive (.inr (by simp [taken])), taken,
                afterRead_message]
              apply proceed
              · exact up
              · exact handled
              · rw [← current]
                exact .start s.field s.now
              · rw [← current]
                exact shown
          | _ => exact quiet (by simp [Session.heard, phase, alive, polled]) rfl rfl rfl
      | starved phase alive due dry => exact quiet (by simp [Session.heard, dry]) rfl rfl rfl
      | released phase => exact quiet (by simp [Session.heard, phase]) rfl rfl rfl
      | calling phase =>
          exact quiet (by simp [Session.heard, phase]) (by rw [phase]; rfl) rfl rfl
      | handed phase => exact absurd phase (unhandled _ _)
      | turnedAway phase => exact absurd phase (unhandled _ _)
      | expired phase => exact absurd phase (unhandled _ _)
      | queued phase => exact absurd phase (unhandled _ _)
  | @underway peerId messages message states errand deadline phase handled handling shown =>
      obtain ⟨status, still⟩ := attempt_visible s errand
      cases move with
      | cut _ fired =>
          rw [completed_of_fired fired, heard_of_fired fired, List.append_nil, List.append_nil]
          exact .cut rfl handled shown
      | handed other alive =>
          cases other.symm.trans phase
          exact resume phase alive (still.trans up) handled handling (status.trans shown)
            (attempt_conversation s errand) moved
      | turnedAway other alive =>
          cases other.symm.trans phase
          exact resume phase alive (still.trans up) handled handling (status.trans shown)
            (attempt_conversation s errand) moved
      | expired other alive =>
          cases other.symm.trans phase
          obtain ⟨conversation, status', still'⟩ := leaveLine_visible (s.attempt errand).2 errand
          exact resume phase alive (still'.trans (still.trans up)) handled handling
            (status'.trans (status.trans shown))
            (conversation.trans (attempt_conversation s errand)) moved
      | queued other alive =>
          cases other.symm.trans phase
          have waits : (s.attempt errand).2.reader = .handling errand deadline :=
            (attempt_reader s errand).trans phase
          rw [heard_of_handling phase, List.append_nil,
            completed_of_handling moved alive (.inl (isHandling_of_handling phase)),
            if_pos (isHandling_of_handling waits), List.append_nil]
          exact .underway waits handled (by rw [attempt_conversation]; exact handling)
            (status.trans shown)
      | read other => simp [phase] at other
      | starved other => simp [phase] at other
      | released other => simp [phase] at other
      | calling other => simp [phase] at other
  | cut phase => exact absurd phase move.unfinished

/-- Whatever happens, the status shows the latest milestone. -/
theorem after {before : Nat} (shows : Shows addr pieces s states heard) (life : s.Lifecycle)
    (wired : s.Wired before) (event : Event) :
    Shows addr pieces (s.after event) (states ++ s.completed event) (heard ++ s.heard event) := by
  have move := after_move s event
  obtain ⟨s', moved⟩ : ∃ s', s.after event = s' := ⟨_, rfl⟩
  rw [moved] at move ⊢
  have elsewhere : s.completed event = [] → s.heard event = [] → s'.reader = s.reader →
      s'.teardown.isEstablished = s.teardown.isEstablished →
      s'.conversation = s.conversation → s'.status = s.status →
      Shows addr pieces s' (states ++ s.completed event) (heard ++ s.heard event) := by
    intro quiet silent reader established conversation status
    rw [quiet, silent, List.append_nil, List.append_nil]
    exact shows.still reader established conversation status
  cases move with
  | wait stuck =>
      exact elsewhere (completed_of_waiting stuck) (heard_of_waiting stuck) rfl rfl rfl rfl
  | outbox turn => exact elsewhere rfl rfl rfl rfl rfl rfl
  | writer move =>
      have silent : s.heard (.task .writer) = [] := rfl
      rw [silent, List.append_nil]
      exact shows.writer life wired move moved
  | reader move => exact shows.reader wired move moved
  | call made move => exact elsewhere rfl rfl rfl move.isEstablished_eq rfl rfl
  | shutdown => exact elsewhere rfl rfl rfl (Teardown.isEstablished_trigger _ _ _) rfl rfl
  | abandon made => exact elsewhere rfl rfl rfl (Teardown.isEstablished_abandon _ _) rfl rfl
  | outside surroundings frame silent =>
      have established : s'.teardown.isEstablished = s.teardown.isEstablished := by
        rw [frame.teardown]
      cases event with
      | task task => contradiction
      | _ => exact elsewhere rfl rfl frame.reader established frame.conversation frame.status

/-- The status shows the latest milestone along any history. -/
theorem run {before : Nat} (fresh : Shows addr pieces s [] []) (life : s.Lifecycle)
    (wired : s.Wired before) (history : List Event) :
    Shows addr pieces (s.run history) (s.milestones history) (s.messagesHeard history) := by
  induction history using List.reverseRecOn with
  | nil => exact fresh
  | append_singleton past event ih =>
      have further := ih.after (life.run past) (wired.run past) event
      unfold milestones messagesHeard at further ⊢
      rwa [run_concat, observe_concat, observe_concat]

/-! ### What others see -/

/-- Others see the latest milestone. -/
theorem status_eq (shows : Shows addr pieces s states heard) : s.status = latest states := by
  cases shows with
  | unseen _ _ _ shown => exact shown
  | settled _ _ _ _ current shown => rw [latest_cons, ← current, shown]
  | underway _ _ _ shown => rw [latest_cons, shown]
  | cut _ _ shown => rw [latest_cons, shown]

/-- The milestones come about by the messages that are taken up, in their order, except for
one that is being handled or was cut off. -/
theorem handles {first : Conversation} {rest : List Conversation}
    (shows : Shows addr pieces s (first :: rest) heard) :
    (∃ peerId, first = acquainted addr pieces peerId) ∧
      ∃ messages outcome, first.Handles messages rest outcome ∧
        (heard = messages ∨ ∃ message, heard = messages ++ [message] ∧
          (s.reader.isHandling = true ∨ s.reader = .finished)) := by
  cases shows with
  | settled _ _ handled => exact ⟨⟨_, rfl⟩, heard, _, handled, .inl rfl⟩
  | @underway _ messages message _ _ _ phase handled =>
      have handling := isHandling_of_handling phase
      exact ⟨⟨_, rfl⟩, messages, .ok (), handled, .inr ⟨message, rfl, .inl handling⟩⟩
  | @cut _ messages message _ phase handled =>
      exact ⟨⟨_, rfl⟩, messages, .ok (), handled, .inr ⟨message, rfl, .inr phase⟩⟩

end Shows

/-- Once somebody has called for the end, there is nothing more to show. -/
theorem milestones_of_fired {s : Session} (fired : s.teardown.hasFired = true)
    (later : List Event) : s.milestones later = [] := by
  induction later using List.reverseRecOn with
  | nil => rfl
  | append_singleton past event ih =>
      have still := (isEstablished_run_of_fired fired past).1
      rw [milestones, observe_concat, ← milestones, ih, completed_of_fired still, List.append_nil]

/-- What others see of a connection is always whole. Before the remote is known it is
nothing; then it is the state right after some number of messages, each handled to its end,
the last of them possibly with a failure; and that is the latest such state.

`milestones` begins with the state in which the remote became known and goes on with one
state for each message that was taken up; only the last message may lack its own, while it is
being handled or when it was cut off. It only grows along a history, so the number of
messages that can be seen never falls. When a message or a keep-alive is handled, what is
seen is the present state. Once somebody has called for the end, nothing is added: a message
that is being handled at that time is never seen, whatever it has changed. -/
theorem status_is_latest_milestone (settings : Settings) (identity : Identity) (addr : String)
    (pieces : UInt64) (field : Bitfield) (capacities : Capacities) (transport : Transport)
    (history later : List Event) :
    let s := Session.start settings identity addr pieces field capacities transport
    let now := s.run history
    now.status = latest (s.milestones history) ∧
      (∀ first rest, s.milestones history = first :: rest →
        (∃ peerId, first = acquainted addr pieces peerId) ∧
          ∃ messages outcome, first.Handles messages rest outcome ∧
            (s.messagesHeard history = messages ∨
              ∃ message, s.messagesHeard history = messages ++ [message] ∧
                (now.reader.isHandling = true ∨ now.reader = .finished))) ∧
      s.milestones history <+: s.milestones (history ++ later) ∧
      (∀ event, now.completes event = true →
        (now.after event).status = (now.after event).conversation.status) ∧
      (now.teardown.hasFired = true → s.milestones (history ++ later) = s.milestones history ∧
        (now.run later).status = now.status) := by
  intro s now
  have life : s.Lifecycle := .start settings identity addr pieces field capacities transport
  have wired : s.Wired transport.outbound.closes :=
    .start settings identity addr pieces field capacities transport
  have fresh : Shows addr pieces s [] [] := .unseen rfl rfl rfl rfl
  have shown := fresh.run life wired
  refine ⟨(shown history).status_eq, ?_, ?_, ?_, ?_⟩
  · intro first rest begun
    exact (begun ▸ shown history).handles
  · rw [milestones, milestones, observe_append]
    apply List.prefix_append
  · intro event completing
    have further := (shown (history ++ [event])).status_eq
    rw [milestones, observe_concat, completed, if_pos completing, latest_concat,
      run_concat] at further
    exact further
  · intro fired
    have same : s.milestones (history ++ later) = s.milestones history := by
      rw [milestones, observe_append, ← milestones, ← milestones, milestones_of_fired fired,
        List.append_nil]
    have after := (shown (history ++ later)).status_eq
    rw [same, ← (shown history).status_eq, run_append] at after
    exact ⟨same, after⟩

/-- What a field message tells is known as soon as it is read. The teardown comes before our
interest is handed over, and others see nothing of it. -/
example :
    let s := Session.start .default default "10.0.0.7:6881" 2 (.empty 2) ⟨1, 4, 4⟩ (.adopt default)
    let now := s.run [.task .writer, .task .writer, .remoteSends (.ok (.bitfield [192])),
      .task .reader, .shutdown, .task .reader]
    now.conversation.status.remotePieces = 2 ∧ now.status.remotePieces = 0 := by
  decide +kernel

end Session

end PeerWire

import PeerWire.Proofs.Session.Cancelled
import PeerWire.Proofs.Session.ReaderTurns
import PeerWire.Proofs.Session.SchedulerBooks

/-!
A connection that is never established leaves no trace. Whatever keeps the wire from coming
up, and whenever it strikes: no message was written, nothing was submitted to the scheduler,
and nothing is known or shown of the remote. What is left is one report with the reason why.

`Setback` lists all reasons that the writer can have, with the point at which it stands
then and what it has met with. A first call for the end comes from one of them or from the
owner, and `ending?_iff_of_unestablished` says so in both directions.
-/

namespace PeerWire

namespace Session

variable {s s' : Session} {event : Event} {reason : Ending}

/-! ### What keeps the wire from coming up -/

/-- Why the writer gives up in its next step. -/
inductive Setback (s : Session) : Ending → Prop where
  | otherSize (phase : s.writer = .starting) (differs : s.field.pieces ≠ s.pieces) :
      Setback s (.connect
        s!"local bitfield covers {s.field.size} pieces, swarm has {s.pieces.toNat}")
  | undialed {deadline : Nat} {text : String} (phase : s.writer = .dialing deadline)
      (failed : s.transport.dial = .failed text) : Setback s (.connect text)
  | dialTimeout {deadline : Nat} (phase : s.writer = .dialing deadline)
      (pending : s.transport.dial = .pending) (due : deadline ≤ s.now) :
      Setback s (.connect (PeerFault.timeout "connect").message)
  /-- Our handshake could not be sent. -/
  | unsent {deadline : Nat} {text : String} (phase : s.writer = .greeting deadline false)
      (opened : s.transport.outbound.isOpen = true)
      (failed : s.transport.outbound.failure = some text) : Setback s (.handshake text)
  | sendTimeout {deadline : Nat} (phase : s.writer = .greeting deadline false)
      (shut : s.transport.outbound.isOpen = false) (due : deadline ≤ s.now) :
      Setback s (.handshake (PeerFault.timeout "handshake").message)
  /-- The remote's handshake is cut short, malformed, or of another swarm. -/
  | refused {deadline : Nat} {failure : Failure} {rest : List UInt8}
      (phase : s.writer = .greeting deadline true)
      (refused : Handshake.receive s.identity.infoHash s.transport.inbound.waiting
        s.transport.inbound.hasEnded = .refused failure rest) :
      Setback s (.handshake failure.message)
  /-- The wire has failed before all of the remote's handshake was there. -/
  | broken {deadline : Nat} {failure : Failure} (phase : s.writer = .greeting deadline true)
      (waiting : Handshake.receive s.identity.infoHash s.transport.inbound.waiting
        s.transport.inbound.hasEnded = .waiting)
      (broken : s.transport.inbound.breakage? = some failure) :
      Setback s (.handshake failure.message)
  | greetingTimeout {deadline : Nat} (phase : s.writer = .greeting deadline true)
      (waiting : Handshake.receive s.identity.infoHash s.transport.inbound.waiting
        s.transport.inbound.hasEnded = .waiting)
      (unbroken : s.transport.inbound.breakage? = none) (due : deadline ≤ s.now) :
      Setback s (.handshake (PeerFault.timeout "handshake").message)

/-- A writer that meets with a setback calls for the end, with the reason for it. -/
theorem Setback.after (setback : s.Setback reason) (alive : s.teardown.hasFired = false) :
    s.after (.task .writer) = s.failWriter reason false := by
  cases setback with
  | otherSize phase differs =>
      simp [Session.after, step, stepWriter, startWriter, phase, alive, differs]
  | undialed phase failed =>
      simp [Session.after, step, stepWriter, stepDial, phase, alive, failed]
  | dialTimeout phase pending due =>
      simp [Session.after, step, stepWriter, stepDial, phase, alive, pending, due]
  | unsent phase opened failed =>
      simp [Session.after, step, stepWriter, stepGreeting, phase, alive, opened, failed]
  | sendTimeout phase shut due =>
      simp [Session.after, step, stepWriter, stepGreeting, greetingTimedOut, phase, alive, shut,
        due]
  | refused phase refused =>
      simp [Session.after, step, stepWriter, stepGreeting, phase, alive, refused]
  | broken phase waiting broken =>
      simp [Session.after, step, stepWriter, stepGreeting, phase, alive, waiting, broken]
  | greetingTimeout phase waiting unbroken due =>
      simp [Session.after, step, stepWriter, stepGreeting, greetingTimedOut, phase, alive, waiting,
        unbroken, due]

/-- The writer's next step makes no call for the end. -/
def Quiet (s : Session) : Prop :=
  (s.after (.task .writer)).teardown.ending? = s.teardown.ending?

section Phases

variable {deadline : Nat} (alive : s.teardown.hasFired = false)
include alive

theorem setback_or_quiet_of_starting (phase : s.writer = .starting) :
    (∃ reason, s.Setback reason) ∨ s.Quiet := by
  by_cases sized : s.field.pieces = s.pieces
  · right
    unfold Quiet
    cases adopted : s.transport.adopted with
    | none => simp [Session.after, step, stepWriter, startWriter, phase, alive, sized, adopted]
    | some peerId =>
        simp only [Session.after, step, stepWriter, startWriter, phase, alive, sized, adopted,
          ne_eq, not_true_eq_false, Bool.false_eq_true, if_false, Option.getD_some]
        rfl
  · exact .inl ⟨_, .otherSize phase sized⟩

theorem setback_or_quiet_of_dialing (phase : s.writer = .dialing deadline) :
    (∃ reason, s.Setback reason) ∨ s.Quiet := by
  cases dialed : s.transport.dial with
  | failed text => exact .inl ⟨_, .undialed phase dialed⟩
  | connected =>
      right
      simp [Quiet, Session.after, step, stepWriter, stepDial, phase, alive, dialed]
  | pending =>
      by_cases due : deadline ≤ s.now
      · exact .inl ⟨_, .dialTimeout phase dialed due⟩
      · right
        simp [Quiet, Session.after, step, stepWriter, stepDial, phase, alive, dialed, due]

theorem setback_or_quiet_of_unsent (phase : s.writer = .greeting deadline false) :
    (∃ reason, s.Setback reason) ∨ s.Quiet := by
  cases opened : s.transport.outbound.isOpen with
  | true =>
      cases failure : s.transport.outbound.failure with
      | some text => exact .inl ⟨_, .unsent phase opened failure⟩
      | none =>
          right
          simp [Quiet, Session.after, step, stepWriter, stepGreeting, phase, alive, opened, failure]
  | false =>
      by_cases due : deadline ≤ s.now
      · exact .inl ⟨_, .sendTimeout phase opened due⟩
      · right
        simp [Quiet, Session.after, step, stepWriter, stepGreeting, phase, alive, opened, due]

theorem setback_or_quiet_of_sent (phase : s.writer = .greeting deadline true) :
    (∃ reason, s.Setback reason) ∨ s.Quiet := by
  cases reply : Handshake.receive s.identity.infoHash s.transport.inbound.waiting
      s.transport.inbound.hasEnded with
  | refused failure rest => exact .inl ⟨_, .refused phase reply⟩
  | accepted peerId rest =>
      right
      simp only [Quiet, Session.after, step, stepWriter, stepGreeting, phase, alive, reply,
        Bool.not_true, Bool.false_eq_true, if_false, Option.getD_some]
      rfl
  | waiting =>
      cases breakage : s.transport.inbound.breakage? with
      | some failure => exact .inl ⟨_, .broken phase reply breakage⟩
      | none =>
          by_cases due : deadline ≤ s.now
          · exact .inl ⟨_, .greetingTimeout phase reply breakage due⟩
          · right
            simp [Quiet, Session.after, step, stepWriter, stepGreeting, phase, alive, reply,
              breakage, due]

theorem setback_or_quiet (bringing : s.writer.isBringingUp = true) :
    (∃ reason, s.Setback reason) ∨ s.Quiet := by
  cases phase : s.writer with
  | starting => exact setback_or_quiet_of_starting alive phase
  | dialing deadline => exact setback_or_quiet_of_dialing alive phase
  | greeting deadline sent =>
      cases sent with
      | false => exact setback_or_quiet_of_unsent alive phase
      | true => exact setback_or_quiet_of_sent alive phase
  | _ =>
      rw [phase] at bringing
      contradiction

/-- While the writer brings the wire up, it calls for the end because of a setback only. -/
theorem setback_of_called (bringing : s.writer.isBringingUp = true)
    (uncalled : s.teardown.ending? = none)
    (called : (s.after (.task .writer)).teardown.ending? = some reason) : s.Setback reason := by
  rcases setback_or_quiet alive bringing with ⟨other, setback⟩ | quiet
  · have first : (s.after (.task .writer)).teardown.ending? = some other := by
      rw [setback.after alive]
      exact Teardown.ending?_trigger_of_uncalled uncalled _ _
    obtain rfl : other = reason := Option.some.inj (first.symm.trans called)
    exact setback
  · exact nomatch (quiet.trans uncalled).symm.trans called

end Phases

/-! ### While the connection is not established -/

/-- Without the connection being established, an event gives nothing away. -/
structure Traceless (s s' : Session) : Prop where
  written : s'.transport.outbound.written = s.transport.outbound.written
  conversation : s'.conversation = s.conversation
  status : s'.status = s.status

theorem Traceless.refl (s : Session) : s.Traceless s := ⟨rfl, rfl, rfl⟩

theorem Traceless.trans {s'' : Session} (first : s.Traceless s') (second : s'.Traceless s'') :
    s.Traceless s'' :=
  ⟨second.written.trans first.written, second.conversation.trans first.conversation,
    second.status.trans first.status⟩

section Moves

variable {before : Nat}

theorem WriterMove.traceless (move : WriterMove s s') (wired : s.Wired before)
    (unestablished : s'.teardown.isEstablished = false)
    (unestablishedBefore : s.teardown.isEstablished = false) : s.Traceless s' := by
  have down : s.writer.stage ≠ .up := by
    intro up
    rw [(wired.of_up up).1] at unestablishedBefore
    contradiction
  cases move with
  | adopt => contradiction
  | welcome => contradiction
  | announced phase | wrote phase | crash phase => exact absurd (by rw [phase]; rfl) down
  | @released call up => cases up <;> exact ⟨rfl, rfl, rfl⟩
  | _ => exact ⟨rfl, rfl, rfl⟩

theorem Move.traceless (move : Move s event s') (wired : s.Wired before)
    (unestablished : s'.teardown.isEstablished = false)
    (unestablishedBefore : s.teardown.isEstablished = false) : s.Traceless s' := by
  cases move with
  | writer move => exact move.traceless wired unestablished unestablishedBefore
  | reader move =>
      have established := wired.established_of_reader move.started.1
      rw [established] at unestablishedBefore
      contradiction
  | outside surroundings frame silent => exact ⟨frame.written, frame.conversation, frame.status⟩
  | _ => exact ⟨rfl, rfl, rfl⟩

end Moves

section Runs

variable {before : Nat} {history : List Event}

theorem unestablished_of_after (unestablished : (s.after event).teardown.isEstablished = false) :
    s.teardown.isEstablished = false := by
  rcases (after_move s event).isEstablished with same | ⟨-, -, -, -, established⟩
  · exact same.symm.trans unestablished
  · rw [unestablished] at established
    contradiction

/-- A connection that is not established at the end was not established before. -/
theorem unestablished_of_run
    (unestablished : (s.run history).teardown.isEstablished = false) :
    s.teardown.isEstablished = false := by
  induction history using List.reverseRecOn with
  | nil => exact unestablished
  | append_singleton past event ih =>
      rw [run_concat] at unestablished
      exact ih (unestablished_of_after unestablished)

theorem traceless_run (wired : s.Wired before)
    (unestablished : (s.run history).teardown.isEstablished = false) :
    s.Traceless (s.run history) := by
  induction history using List.reverseRecOn with
  | nil => exact .refl s
  | append_singleton past event ih =>
      rw [run_concat] at unestablished ⊢
      have earlier := unestablished_of_after unestablished
      have kept := (after_move _ event).traceless (wired.run past) unestablished earlier
      exact (ih earlier).trans kept

/-- Until the connection is established, the end is called for by its owner, who cancels it,
or by a writer that has met with a setback. -/
theorem calls_of_unestablished (wired : s.Wired before)
    (unestablished : s.teardown.isEstablished = false) (alive : s.teardown.hasFired = false)
    (uncalled : s.teardown.ending? = none)
    (called : (s.after event).teardown.ending? = some reason) :
    event = .shutdown ∧ reason = .cancelled ∨ event = .task .writer ∧ s.Setback reason := by
  have down : s.writer.stage ≠ .up := by
    intro up
    rw [(wired.of_up up).1] at unestablished
    contradiction
  have move := after_move s event
  generalize led : s.after event = s' at move called
  cases move with
  | shutdown =>
      have first : s.shutdown.teardown.ending? = some .cancelled :=
        Teardown.ending?_trigger_of_uncalled uncalled _ _
      exact .inl ⟨rfl, Option.some.inj (called.symm.trans first)⟩
  | writer move =>
      cases move with
      | abort bringing =>
          exact .inr ⟨rfl, setback_of_called alive bringing uncalled (led ▸ called)⟩
      | failed phase | dryUp phase => exact absurd (by rw [phase]; rfl) down
      | @released call up => cases up <;> exact nomatch uncalled.symm.trans called
      | calling phase move => exact nomatch (move.ending?_eq.trans uncalled).symm.trans called
      | _ => exact nomatch uncalled.symm.trans called
  | reader move =>
      have established := wired.established_of_reader move.started.1
      rw [established] at unestablished
      contradiction
  | call made move => exact nomatch (move.ending?_eq.trans uncalled).symm.trans called
  | abandon made => exact nomatch ((Teardown.ending?_abandon _ _).trans uncalled).symm.trans called
  | outside surroundings frame silent =>
      have same : s'.teardown.ending? = s.teardown.ending? := by
        rw [frame.teardown]
        rfl
      exact nomatch (same.trans uncalled).symm.trans called
  | _ => exact nomatch uncalled.symm.trans called

/-- The end of a connection that is not established was called for first by its owner, or by
the writer after a setback. -/
theorem ending?_iff_of_unestablished (life : s.Lifecycle) (wired : s.Wired before)
    (uncalled : s.teardown.ending? = none)
    (unestablished : (s.run history).teardown.isEstablished = false) :
    (s.run history).teardown.ending? = some reason ↔
      ∃ past event later, history = past ++ event :: later ∧
        (s.run past).teardown.hasFired = false ∧
        (event = .shutdown ∧ reason = .cancelled ∨
          event = .task .writer ∧ (s.run past).Setback reason) := by
  constructor
  · intro called
    induction history using List.reverseRecOn with
    | nil => exact nomatch uncalled.symm.trans called
    | append_singleton past event ih =>
        rw [run_concat] at unestablished called
        have earlier := unestablished_of_after unestablished
        cases sofar : (s.run past).teardown.ending? with
        | some other =>
            have kept := (after_move (s.run past) event).teardown_turn.ending? sofar
            obtain rfl : other = reason := Option.some.inj (kept.symm.trans called)
            obtain ⟨past', event', later, rfl, alive, cause⟩ := ih earlier sofar
            exact ⟨past', event', later ++ [event], by simp, alive, cause⟩
        | none =>
            have alive := (life.run past).oneShot.uncalled_iff.mp sofar
            exact ⟨past, event, [], rfl, alive,
              calls_of_unestablished (wired.run past) earlier alive sofar called⟩
  · rintro ⟨past, event, later, rfl, alive, cause⟩
    rw [run_append]
    apply ending?_run (s := (s.run past).after event)
    rcases cause with ⟨rfl, rfl⟩ | ⟨rfl, setback⟩
    · exact (life.run past).oneShot.ending?_trigger alive _ _
    · rw [setback.after alive]
      exact (life.run past).oneShot.ending?_trigger alive _ _

end Runs

/-! ### The dial -/

section Dials

theorem afterRead_transport (u : Session) (outcome : ReadOutcome) :
    (u.afterRead outcome).transport = u.transport := by
  cases outcome with
  | message message =>
      rw [afterRead_message]
      exact proceed_transport u _
  | _ => rfl

/-- The reader takes up what a read brings it, or leaves the wire alone. -/
theorem ReaderMove.reads (move : ReaderMove s s') :
    (s'.transport = s.transport ∧ s.brought (.task .reader) = []) ∨
      ∃ outcome inbound, s.teardown.hasFired = false ∧
        s.transport.inbound.poll = some (outcome, inbound) ∧
        s.brought (.task .reader) = [outcome] ∧
        s' = ({ s with transport := { s.transport with inbound } } : Session).afterRead
          outcome := by
  have resumed : ∀ {u : Session} (errand : Errand) (result : HandOver),
      u.transport = s.transport → (u.resume errand result).transport = s.transport := by
    intro u errand result transport
    exact (proceed_transport u _).trans transport
  cases move with
  | @read deadline outcome inbound phase alive polled =>
      refine .inr ⟨outcome, inbound, alive, polled, ?_, rfl⟩
      rw [brought_of_reading phase alive, polled]
      rfl
  | starved phase alive due dry =>
      refine .inl ⟨afterRead_transport _ _, ?_⟩
      rw [brought_of_reading phase alive, dry]
      rfl
  | handed phase =>
      exact .inl ⟨resumed _ _ (attempt_transport _ _), brought_of_unread (by simp [phase])⟩
  | turnedAway phase =>
      exact .inl ⟨resumed _ _ (attempt_transport _ _), brought_of_unread (by simp [phase])⟩
  | expired phase =>
      exact .inl ⟨resumed _ _ ((leaveLine_transport _ _).trans (attempt_transport _ _)),
        brought_of_unread (by simp [phase])⟩
  | queued phase => exact .inl ⟨attempt_transport _ _, brought_of_unread (by simp [phase])⟩
  | cut phase fired => exact .inl ⟨rfl, by simp [brought, fired]⟩
  | released phase => exact .inl ⟨rfl, brought_of_unread (by simp [phase])⟩
  | calling phase => exact .inl ⟨rfl, brought_of_unread (by simp [phase])⟩

theorem ReaderMove.dials_eq (move : ReaderMove s s') :
    s'.transport.dials = s.transport.dials := by
  rcases move.reads with ⟨transport, -⟩ | ⟨outcome, inbound, -, -, -, rfl⟩
  · rw [transport]
  · rw [afterRead_transport]

/-- A wire is dialed by the writer's first step only. -/
theorem Move.dials_eq (move : Move s event s')
    (later : event ≠ .task .writer ∨ s.writer ≠ .starting) :
    s'.transport.dials = s.transport.dials := by
  cases move with
  | writer move =>
      cases move with
      | dial phase => exact absurd phase (later.resolve_left (not_not.mpr rfl))
      | @released call up => cases up <;> rfl
      | _ => rfl
  | reader move => exact move.dials_eq
  | outside surroundings frame silent => exact frame.dials
  | _ => rfl

/-- A writer that has taken its first step does not start again. -/
theorem Move.not_starting (move : Move s event s') (left : s.writer ≠ .starting) :
    s'.writer ≠ .starting := by
  cases move with
  | writer move =>
      cases move with
      | @released call up => cases up <;> exact nofun
      | calling => exact left
      | _ => exact nofun
  | reader move => exact move.frame.writer ▸ left
  | outside surroundings frame silent => exact frame.writer ▸ left
  | _ => exact left

theorem dials_run_of_left (left : s.writer ≠ .starting) (history : List Event) :
    (s.run history).writer ≠ .starting ∧
      (s.run history).transport.dials = s.transport.dials := by
  refine run_invariant (motive := fun t => t.writer ≠ .starting ∧
    t.transport.dials = s.transport.dials) ⟨left, rfl⟩ ?_ history
  rintro t t' event move ⟨left, same⟩
  exact ⟨move.not_starting left, (move.dials_eq (.inr left)).trans same⟩

theorem dials_run_of_unstepped {past : List Event} (unstepped : .task .writer ∉ past) :
    (s.run past).transport.dials = s.transport.dials := by
  induction past using List.reverseRecOn with
  | nil => rfl
  | append_singleton past event ih =>
      rw [List.mem_append, List.mem_singleton, not_or] at unstepped
      rw [run_concat]
      exact ((after_move _ event).dials_eq (.inl (Ne.symm unstepped.2))).trans (ih unstepped.1)

/-- The writer dials in its first step if nobody has called for the end, our field is of the
swarm's size and the wire is not an adopted one. -/
theorem dials_first_step (phase : s.writer = .starting) :
    (s.after (.task .writer)).writer ≠ .starting ∧
      (s.after (.task .writer)).transport.dials = s.transport.dials +
        if s.teardown.hasFired = false ∧ s.field.pieces = s.pieces ∧ s.transport.adopted = none
        then 1 else 0 := by
  have stepped : s.after (.task .writer) = s.startWriter := by
    simp [Session.after, step, stepWriter, phase]
  rw [stepped]
  unfold startWriter
  by_cases fired : s.teardown.hasFired = true
  · rw [if_pos fired, if_neg (by simp [fired])]
    exact ⟨by simp [stopWriter], rfl⟩
  · rw [if_neg fired]
    by_cases sized : s.field.pieces = s.pieces
    · rw [if_neg (not_not.mpr sized)]
      cases adopted : s.transport.adopted with
      | none =>
          rw [if_pos ⟨by simpa using fired, sized, rfl⟩]
          exact ⟨by simp, rfl⟩
      | some peerId =>
          rw [if_neg (by simp)]
          exact ⟨by simp [establish, beginWrite], rfl⟩
    · rw [if_pos sized, if_neg (fun both => sized both.2.1)]
      exact ⟨by simp [failWriter], rfl⟩

/-- How often a wire is dialed is settled by the writer's first step. -/
theorem dials_run (phase : s.writer = .starting) (fresh : s.teardown.isEstablished = false)
    {past later : List Event} (unstepped : .task .writer ∉ past) :
    (s.run (past ++ .task .writer :: later)).transport.dials = s.transport.dials +
      if (s.run past).teardown.hasFired = false ∧ (s.run past).field.pieces = (s.run past).pieces ∧
        s.transport.adopted = none then 1 else 0 := by
  obtain ⟨starting, -, adopted⟩ := run_before_writer phase fresh unstepped
  obtain ⟨left, dialed⟩ := dials_first_step starting
  have later_eq := (dials_run_of_left left later).2
  rw [run_append]
  exact later_eq.trans (by rw [dialed, dials_run_of_unstepped unstepped, adopted])

end Dials

/-- A connection that is never established leaves no trace, whatever its remote and its owner
do and whenever they do it.

Nothing was written, and nothing submitted to the scheduler; at no moment was anything known
or shown of the remote, or anybody there to read. The wire was dialed once if the writer took
its first step before anybody called for the end, with a field of the swarm's size and
without a wire to adopt, and never otherwise. The end was called for first by the owner, who
cancels the connection, or by the writer after a setback, with the reason that belongs to it.
At most one report went out, with that reason; and it has gone out, to whoever listens, by
the time the first call returns. -/
theorem unestablished_without_trace (settings : Settings) (identity : Identity) (addr : String)
    (pieces : UInt64) (field : Bitfield) (capacities : Capacities) (transport : Transport)
    (history : List Event)
    (unestablished : ((Session.start settings identity addr pieces field capacities transport).run
      history).teardown.isEstablished = false) :
    let s := Session.start settings identity addr pieces field capacities transport
    let t := s.run history
    (t.transport.outbound.written = transport.outbound.written ∧ s.submissions history = []) ∧
    (∀ past, past <+: history → (s.run past).status = {} ∧
      (s.run past).conversation = s.conversation ∧ (s.run past).reader = .absent) ∧
    ((.task .writer ∉ history → t.transport.dials = transport.dials) ∧
      ∀ past later, history = past ++ .task .writer :: later → .task .writer ∉ past →
        t.transport.dials = transport.dials +
          if (s.run past).teardown.hasFired = false ∧
            (s.run past).field.pieces = (s.run past).pieces ∧ transport.adopted = none
          then 1 else 0) ∧
    (∀ reason, t.teardown.ending? = some reason ↔
      ∃ past event later, history = past ++ event :: later ∧
        (s.run past).teardown.hasFired = false ∧
        (event = .shutdown ∧ reason = .cancelled ∨
          event = .task .writer ∧ (s.run past).Setback reason)) ∧
    (s.reports history).length ≤ 1 ∧
    (∀ report ∈ s.reports history,
      report.addr = addr ∧ t.teardown.ending? = some report.reason) ∧
    ∀ reason, t.teardown.calls[0]? = some { reason, phase := .returned true } →
      t.teardown.exits.isOpen = true → s.reports history = [{ addr, reason }] := by
  intro s t
  have life : s.Lifecycle := .start settings identity addr pieces field capacities transport
  have wired := Wired.start settings identity addr pieces field capacities transport
  have accounts : t.teardown.Accounts (s.reports history) := accounts_run history life rfl
  have addressed : t.teardown.addr = addr := addr_run s history
  refine ⟨⟨(traceless_run wired unestablished).written, ?_⟩, ?_, ⟨?_, ?_⟩, ?_,
    accounts.length_le_one, ?_, ?_⟩
  · obtain ⟨work, marker, sofar, dealings⟩ :=
      dealings_run life wired (.start settings identity addr pieces field capacities transport)
        history
    by_contra submitted
    have established := dealings.established (sofar ▸ submitted)
    rw [unestablished] at established
    contradiction
  · rintro past ⟨later, rfl⟩
    have earlier : (s.run past).teardown.isEstablished = false := by
      rw [run_append] at unestablished
      exact unestablished_of_run unestablished
    have traceless := traceless_run wired earlier
    refine ⟨traceless.status, traceless.conversation, ?_⟩
    by_contra present
    rw [(wired.run past).established_of_reader present] at earlier
    contradiction
  · exact dials_run_of_unstepped
  · rintro past later rfl unstepped
    exact dials_run rfl rfl unstepped
  · intro reason
    exact ending?_iff_of_unestablished life wired rfl unestablished
  · intro report put
    rcases accounts.owed with none | ⟨reason, returned, only⟩
    · rw [none] at put
      contradiction
    · rw [only, List.mem_singleton] at put
      subst put
      refine ⟨addressed, ?_⟩
      unfold Teardown.ending?
      rw [List.head?_eq_getElem?, returned]
      rfl
  · intro reason returned listening
    rw [accounts.paid reason returned listening, addressed]

/-- Nobody listens where we dial. -/
theorem unestablished_without_trace_undialed :
    let s := Session.start .default default "10.0.0.7:6881" 4 (.empty 4) ⟨1, 4, 4⟩
      (.toDial 1048589 (.failed "connection refused"))
    let history : List Event := [.task .writer, .task .writer, .task .writer, .task .writer,
      .shutdown, .task .writer]
    (s.run history).teardown.isEstablished = false ∧ (s.run history).transport.dials = 1 ∧
      s.submissions history = [] ∧
      s.reports history =
        [{ addr := "10.0.0.7:6881", reason := .connect "connection refused" }] := by
  intro s history
  have unestablished : (s.run history).teardown.isEstablished = false := by decide
  obtain ⟨⟨-, submitted⟩, -, ⟨-, dialed⟩, -, -, -, reported⟩ :=
    unestablished_without_trace .default default "10.0.0.7:6881" 4 (.empty 4) ⟨1, 4, 4⟩
      (.toDial 1048589 (.failed "connection refused")) history unestablished
  exact ⟨unestablished, dialed [] _ rfl (by simp), submitted,
    reported _ (by rfl) (by decide)⟩

end Session

end PeerWire

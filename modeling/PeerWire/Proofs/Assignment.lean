import Mathlib.Data.List.Induction
import PeerWire.Assignment
import PeerWire.Proofs.Mailbox

/-!
The scheduler among those who use it. Anybody may put requests and deliveries into its two
inboxes, answer channels come up, fill, drain and go away, and what we hold may change, all
of it in any order and between any two steps of the task, which may look at either inbox
whenever it is idle. A `Deed` is what a step of the task does about pieces, and `Turned`
sorts the steps by their deeds. `heldFor` reads off the deeds for whom a piece is in flight;
`Books` says that this is what the scheduler has in flight.
-/

namespace PeerWire

namespace Assignment

/-- What others do with an answer channel. -/
inductive Use where
  | put (who : Option Party) (message : Message)
  /-- The party does not wait for room any longer. -/
  | giveUp (party : Party)
  | take (most : Nat)
  /-- The receiver goes away. -/
  | close
deriving DecidableEq, Repr

/-- An answer channel after it was used. -/
def Use.apply (box : Mailbox Message) : Use → Mailbox Message
  | .put who message => (box.put who message).2
  | .giveUp party => box.leave party
  | .take most => (box.take most).2
  | .close => box.close

/-- What can happen to a scheduler. -/
inductive Event where
  /-- The task takes a step, if it can, looking at the inbox if it is idle. -/
  | turn (inbox : Inbox)
  | request (who : Option Party) (request : PieceRequest)
  | deliver (who : Option Party) (delivery : Delivery)
  /-- The party does not wait for room in an inbox any longer. -/
  | giveUp (party : Party)
  /-- Another answer channel comes up. -/
  | connect (capacity : Nat)
  | use (channel : Nat) (use : Use)
  | setField (field : Bitfield)
  /-- The last of those who could send requests, or deliveries, is gone. -/
  | dropRequesters
  | dropDeliverers
deriving DecidableEq, Repr

/-- What a step of the task does about pieces. -/
inductive Deed where
  /-- There is nothing to assign in answer to the request. -/
  | passedOver (request : PieceRequest)
  | assigned (request : PieceRequest) (piece : UInt32)
  /-- The answer with the piece is in its channel. -/
  | answered (piece : UInt32)
  /-- There is nobody to answer any more. -/
  | withdrawn (piece : UInt32)
  | took (delivery : Delivery)
deriving DecidableEq, Repr

/-- What an event leads to. Only who is still there sends. -/
def after (a : Assignment) : Event → Assignment
  | .turn inbox => (a.turn inbox).getD a
  | .request who request =>
      if a.hasRequesters then { a with requests := (a.requests.put who request).2 } else a
  | .deliver who delivery =>
      if a.hasDeliverers then { a with deliveries := (a.deliveries.put who delivery).2 } else a
  | .giveUp party =>
      { a with requests := a.requests.leave party, deliveries := a.deliveries.leave party }
  | .connect capacity => { a with answers := a.answers ++ [.ofCapacity capacity] }
  | .use channel use => { a with answers := a.answers.modify channel use.apply }
  | .setField field => { a with field }
  | .dropRequesters => { a with hasRequesters := false }
  | .dropDeliverers => { a with hasDeliverers := false }

/-- The deed of the task's next step. -/
def turnDeed? (a : Assignment) (inbox : Inbox) : Option Deed :=
  match a.phase with
  | .stopped => none
  | .answering piece replyTo =>
      match a.answers[replyTo]? with
      | none => some (.withdrawn piece)
      | some box =>
          match (box.send .scheduler (a.scheduler.requestFor piece)).1 with
          | .accepted => some (.answered piece)
          | .closed => some (.withdrawn piece)
          | .full => none
  | .idle =>
      if a.hasDriedUp then none
      else
        match inbox with
        | .requests => a.requests.items.head?.map fun request =>
            match a.scheduler.choose? a.field request.remote with
            | none => .passedOver request
            | some piece => .assigned request piece
        | .deliveries => a.deliveries.items.head?.map .took

/-- What an event does about pieces. -/
def deed? (a : Assignment) : Event → Option Deed
  | .turn inbox => a.turnDeed? inbox
  | _ => none

/-- A history of events, one after the other. -/
def run (a : Assignment) (history : List Event) : Assignment :=
  history.foldl after a

/-- Everything that a history does about pieces, oldest first. -/
def deeds (a : Assignment) : List Event → List Deed
  | [] => []
  | event :: history => (a.deed? event).toList ++ (a.after event).deeds history

section Histories

variable (a : Assignment) (past : List Event) (event : Event)

@[simp] theorem run_nil : a.run [] = a := rfl

@[simp] theorem run_concat : a.run (past ++ [event]) = (a.run past).after event := by
  simp [run]

@[simp] theorem deeds_concat :
    a.deeds (past ++ [event]) = a.deeds past ++ ((a.run past).deed? event).toList := by
  induction past generalizing a with
  | nil => simp [deeds]
  | cons first rest ih =>
      have run : a.run (first :: rest) = (a.after first).run rest := rfl
      simp only [List.cons_append, deeds, ih, run, List.append_assoc]

end Histories

/-! ### The steps of the task -/

/-- What a step of the task does, sorted by its deed. -/
inductive Turned (a : Assignment) : Option Deed → Assignment → Prop where
  /-- The task has to wait, or has ended. -/
  | waits : Turned a none a
  | stopped (idle : a.phase = .idle) (dry : a.hasDriedUp = true) : Turned a none a.stop
  | passedOver {request : PieceRequest} {later : List PieceRequest} (idle : a.phase = .idle)
      (next : a.requests.items = request :: later)
      (nothing : a.scheduler.choose? a.field request.remote = none) :
      Turned a (some (.passedOver request)) { a with requests := (a.requests.take 1).2 }
  | assigned {request : PieceRequest} {later : List PieceRequest} {piece : UInt32}
      (idle : a.phase = .idle) (next : a.requests.items = request :: later)
      (chosen : a.scheduler.choose? a.field request.remote = some piece) :
      Turned a (some (.assigned request piece)) { a with
        requests := (a.requests.take 1).2
        scheduler := a.scheduler.reserve piece
        phase := .answering piece request.replyTo }
  | answered {piece : UInt32} {replyTo : Nat} {box : Mailbox Message}
      (answering : a.phase = .answering piece replyTo) (found : a.answers[replyTo]? = some box)
      (room : (box.send .scheduler (a.scheduler.requestFor piece)).1 = .accepted) :
      Turned a (some (.answered piece)) { a with
        answers :=
          a.answers.set replyTo (box.send .scheduler (a.scheduler.requestFor piece)).2
        phase := .idle }
  | withdrawn {piece : UInt32} {replyTo : Nat} {answers : List (Mailbox Message)}
      (answering : a.phase = .answering piece replyTo)
      (gone : ∀ box, a.answers[replyTo]? = some box → box.isOpen = false) :
      Turned a (some (.withdrawn piece)) { a with
        answers, scheduler := a.scheduler.release piece, phase := .idle }
  /-- The answer has come to wait for room. -/
  | queued {piece : UInt32} {replyTo : Nat} {box : Mailbox Message}
      (answering : a.phase = .answering piece replyTo) (found : a.answers[replyTo]? = some box)
      (full : (box.send .scheduler (a.scheduler.requestFor piece)).1 = .full) :
      Turned a none { a with
        answers :=
          a.answers.set replyTo (box.send .scheduler (a.scheduler.requestFor piece)).2 }
  | took {delivery : Delivery} {later : List Delivery} (idle : a.phase = .idle)
      (next : a.deliveries.items = delivery :: later) :
      Turned a (some (.took delivery)) { a with
        scheduler := (a.scheduler.onDelivery a.field delivery).1
        field := (a.scheduler.onDelivery a.field delivery).2
        deliveries := (a.deliveries.take 1).2 }

section Turns

variable {a : Assignment} {inbox : Inbox} {piece : UInt32} {replyTo : Nat}

theorem turned_answer (answering : a.phase = .answering piece replyTo) :
    Turned a (a.turnDeed? inbox) ((a.answer piece replyTo).getD a) := by
  cases found : a.answers[replyTo]? with
  | none =>
      simp only [turnDeed?, answer, answering, found, Option.getD_some]
      exact .withdrawn answering (by simp [found])
  | some box =>
      cases receipt : (box.send .scheduler (a.scheduler.requestFor piece)).1 with
      | accepted =>
          simp only [turnDeed?, answer, answering, found, receipt, Option.getD_some]
          exact .answered answering found receipt
      | closed =>
          simp only [turnDeed?, answer, answering, found, receipt, Option.getD_some]
          refine .withdrawn answering ?_
          intro other same
          obtain rfl : box = other := by simpa [found] using same
          exact (box.send_eq_closed_iff .scheduler _).mp receipt
      | full =>
          have deed : a.turnDeed? inbox = none := by
            simp only [turnDeed?, answering, found, receipt]
          simp only [deed, answer, found, receipt]
          split
          · exact .waits
          · exact .queued answering found receipt

theorem turned_takeRequest (idle : a.phase = .idle) (wet : a.hasDriedUp = false) :
    Turned a (a.turnDeed? .requests) (a.takeRequest.getD a) := by
  have deed : a.turnDeed? .requests = a.requests.items.head?.map fun request =>
      match a.scheduler.choose? a.field request.remote with
      | none => .passedOver request
      | some piece => .assigned request piece := by
    simp [turnDeed?, idle, wet]
  rw [deed]
  unfold takeRequest Scheduler.assign?
  cases next : a.requests.items with
  | nil => exact .waits
  | cons request later =>
      cases chosen : a.scheduler.choose? a.field request.remote with
      | none => simpa [chosen] using Turned.passedOver idle next chosen
      | some piece => simpa [chosen] using Turned.assigned idle next chosen

theorem turned_takeDelivery (idle : a.phase = .idle) (wet : a.hasDriedUp = false) :
    Turned a (a.turnDeed? .deliveries) (a.takeDelivery.getD a) := by
  have deed : a.turnDeed? .deliveries = a.deliveries.items.head?.map .took := by
    simp [turnDeed?, idle, wet]
  rw [deed]
  unfold takeDelivery
  cases next : a.deliveries.items with
  | nil => exact .waits
  | cons delivery later => exact .took idle next

/-- Every step of the task is of one of these sorts. -/
theorem turned_turn (a : Assignment) (inbox : Inbox) :
    Turned a (a.turnDeed? inbox) ((a.turn inbox).getD a) := by
  unfold turn
  cases phase : a.phase with
  | stopped =>
      unfold turnDeed?
      rw [phase]
      exact .waits
  | answering piece replyTo => exact turned_answer phase
  | idle =>
      dsimp only
      by_cases dry : a.hasDriedUp = true
      · unfold turnDeed?
        rw [phase, dry]
        exact .stopped phase dry
      · rw [if_neg dry]
        cases inbox with
        | requests => exact turned_takeRequest phase (by simpa using dry)
        | deliveries => exact turned_takeDelivery phase (by simpa using dry)

/-- What is done to the scheduler without a step of the task leaves its books alone. -/
theorem after_of_outside (a : Assignment) {event : Event} (outside : ∀ inbox, event ≠ .turn inbox) :
    a.deed? event = none ∧ (a.after event).scheduler = a.scheduler ∧
      (a.after event).phase = a.phase := by
  cases event with
  | turn inbox => exact absurd rfl (outside inbox)
  | request who request =>
      unfold after
      dsimp only
      split <;> exact ⟨rfl, rfl, rfl⟩
  | deliver who delivery =>
      unfold after
      dsimp only
      split <;> exact ⟨rfl, rfl, rfl⟩
  | _ => exact ⟨rfl, rfl, rfl⟩

end Turns

/-! ### For whom a piece is in flight -/

/-- Whoever fetched the piece, nobody does after the deed. -/
def Deed.frees (piece : UInt32) : Deed → Bool
  | .withdrawn other => other = piece
  | .took (.block _ block) => block.piece = piece
  | .took (.disconnected _) => true
  | .passedOver _ | .assigned _ _ | .answered _ => false

/-- The request for which the piece is in flight after the deed, if it was `holder` before. -/
def Deed.hold (piece : UInt32) (holder : Option PieceRequest) (deed : Deed) :
    Option PieceRequest :=
  match deed with
  | .assigned request other => if other = piece then some request else holder
  | deed => if deed.frees piece then none else holder

/-- The request in answer to which the piece is in flight. -/
def heldFor (deeds : List Deed) (piece : UInt32) : Option PieceRequest :=
  deeds.foldl (Deed.hold piece) none

theorem heldFor_concat (deeds : List Deed) (deed : Deed) (piece : UInt32) :
    heldFor (deeds ++ [deed]) piece = deed.hold piece (heldFor deeds piece) := by
  simp [heldFor]

theorem Deed.hold_assigned (request : PieceRequest) (piece : UInt32)
    (holder : Option PieceRequest) :
    (Deed.assigned request piece).hold piece holder = some request :=
  if_pos rfl

theorem Deed.hold_of_frees {deed : Deed} {piece : UInt32} (frees : deed.frees piece = true)
    (holder : Option PieceRequest) : deed.hold piece holder = none := by
  cases deed with
  | assigned request given => contradiction
  | _ => exact if_pos frees

theorem Deed.hold_of_kept {deed : Deed} {piece : UInt32} (kept : deed.frees piece = false)
    (other : ∀ request, deed ≠ .assigned request piece) (holder : Option PieceRequest) :
    deed.hold piece holder = holder := by
  cases deed with
  | assigned request given =>
      refine if_neg ?_
      rintro rfl
      exact other request rfl
  | _ => simp [hold, kept]

/-- Who holds a piece was assigned it, and nothing has freed it since. -/
theorem exists_of_heldFor {deeds : List Deed} {piece : UInt32} {request : PieceRequest}
    (holds : heldFor deeds piece = some request) : ∃ earlier later,
      deeds = earlier ++ .assigned request piece :: later ∧
        ∀ deed ∈ later, deed.frees piece = false := by
  induction deeds using List.reverseRecOn with
  | nil => contradiction
  | append_singleton deeds deed ih =>
      rw [heldFor_concat] at holds
      have kept : deed.frees piece = false := by
        refine Bool.eq_false_iff.mpr fun frees => ?_
        rw [Deed.hold_of_frees frees] at holds
        contradiction
      by_cases other : ∀ request, deed ≠ .assigned request piece
      · rw [Deed.hold_of_kept kept other] at holds
        obtain ⟨earlier, later, rfl, kept'⟩ := ih holds
        exact ⟨earlier, later ++ [deed], by simp,
          List.forall_mem_append.mpr ⟨kept', List.forall_mem_singleton.mpr kept⟩⟩
      · simp only [ne_eq, not_forall, not_not] at other
        obtain ⟨request', rfl⟩ := other
        rw [Deed.hold_assigned, Option.some.injEq] at holds
        exact ⟨deeds, [], by rw [holds], by simp⟩

/-! ### The books -/

end Assignment

namespace Scheduler

variable (s : Scheduler) (piece other : UInt32)

@[simp] theorem mem_reserve : other ∈ (s.reserve piece).inFlight ↔
    other = piece ∨ other ∈ s.inFlight := by
  unfold reserve
  split
  · simp_all
  · simp

@[simp] theorem mem_release : other ∈ (s.release piece).inFlight ↔
    other ∈ s.inFlight ∧ other ≠ piece := by
  simp [release]

/-- A delivery frees what it is about, and nothing else. -/
theorem mem_onDelivery (field : Bitfield) (delivery : Delivery) :
    piece ∈ (s.onDelivery field delivery).1.inFlight ↔
      piece ∈ s.inFlight ∧ (Assignment.Deed.took delivery).frees piece = false := by
  cases delivery with
  | block addr block => simp [onDelivery, Assignment.Deed.frees, eq_comm]
  | disconnected addr => simp [onDelivery, Assignment.Deed.frees]

/-- What is chosen is not in flight. -/
theorem not_mem_of_choose {field remote : Bitfield} (chosen : s.choose? field remote = some piece) :
    piece ∉ s.inFlight := by
  unfold choose? Bitfield.firstHeld? at chosen
  obtain ⟨index, found, rfl⟩ := Option.map_eq_some_iff.mp chosen
  have fits := List.find?_some found
  simp_all

/-- Where nothing is chosen, all that we lack is in flight. -/
theorem mem_of_choose_none {field remote : Bitfield} (nothing : s.choose? field remote = none)
    {index : Nat} (held : remote.has index = true) (lacking : field.has index = false) :
    UInt32.ofNat index ∈ s.inFlight := by
  have inside : index < remote.size := by
    rw [Bitfield.has, Bool.and_eq_true, decide_eq_true_eq] at held
    exact held.1
  unfold choose? Bitfield.firstHeld? at nothing
  rw [Option.map_eq_none_iff, List.find?_eq_none] at nothing
  have passed := nothing index (List.mem_range.mpr inside)
  simpa [held, lacking] using passed

end Scheduler

namespace Assignment

/-- The scheduler's books after its deeds. -/
structure Books (deeds : List Deed) (a : Assignment) : Prop where
  /-- In flight is what is held for somebody. -/
  held : ∀ piece, piece ∈ a.scheduler.inFlight ↔ (heldFor deeds piece).isSome = true
  /-- A piece that was just assigned is being answered with. -/
  pending : ∀ request piece, deeds.getLast? = some (.assigned request piece) →
    a.phase = .answering piece request.replyTo
  /-- Every assignment is followed by its answer, or by its withdrawal. -/
  paired : ∀ earlier request piece next later,
    deeds = earlier ++ .assigned request piece :: next :: later →
      next = .answered piece ∨ next = .withdrawn piece
  /-- Nobody is assigned what is held for somebody. -/
  exclusive : ∀ earlier request piece later, deeds = earlier ++ .assigned request piece :: later →
    heldFor earlier piece = none

section Books

variable {a a' : Assignment} {deeds : List Deed} {deed : Option Deed}

theorem books_start (blockSize : UInt32) (field : Bitfield) : Books [] (start blockSize field) where
  held := by simp [start, heldFor]
  pending := by simp
  paired := by simp
  exclusive := by simp

/-- A deed does to what is in flight what it does to the holders. -/
theorem Turned.held {deed : Deed} (turned : Turned a (some deed) a') {piece : UInt32}
    {holder : Option PieceRequest} (held : piece ∈ a.scheduler.inFlight ↔ holder.isSome = true) :
    piece ∈ a'.scheduler.inFlight ↔ (deed.hold piece holder).isSome = true := by
  cases turned with
  | passedOver idle next nothing => exact held
  | @assigned request later given idle next chosen =>
      rw [Scheduler.mem_reserve, held, Deed.hold]
      by_cases same : given = piece
      · simp [same]
      · simp [same, Ne.symm same]
  | answered answering found room => exact held
  | @withdrawn given replyTo answers answering gone =>
      rw [Scheduler.mem_release, held]
      by_cases same : given = piece
      · simp [Deed.hold, Deed.frees, same]
      · simp [Deed.hold, Deed.frees, same, Ne.symm same]
  | @took delivery later idle next =>
      have hold : (Deed.took delivery).hold piece holder =
          if (Deed.took delivery).frees piece then none else holder := rfl
      rw [Scheduler.mem_onDelivery, held, hold]
      cases (Deed.took delivery).frees piece <;> simp

/-- What is seen next of an answer is that it was sent, or that it was withdrawn. -/
theorem Turned.after_assigned {deed : Deed} (turned : Turned a (some deed) a') {piece : UInt32}
    {replyTo : Nat} (answering : a.phase = .answering piece replyTo) :
    deed = .answered piece ∨ deed = .withdrawn piece := by
  cases turned with
  | answered same found room =>
      cases same.symm.trans answering
      exact .inl rfl
  | withdrawn same gone =>
      cases same.symm.trans answering
      exact .inr rfl
  | passedOver idle | assigned idle | took idle => cases idle.symm.trans answering

/-- A step of which nothing is seen does not end the answering. -/
theorem Turned.still_answering (turned : Turned a none a') {piece : UInt32} {replyTo : Nat}
    (answering : a.phase = .answering piece replyTo) : a'.phase = .answering piece replyTo := by
  cases turned with
  | waits => exact answering
  | stopped idle dry => cases idle.symm.trans answering
  | queued same found full => exact answering

theorem Turned.scheduler_of_unseen (turned : Turned a none a') : a'.scheduler = a.scheduler := by
  cases turned with
  | _ => rfl

/-- The last of some items, or one before it. -/
theorem concat_eq_append_cons {α : Type} {items earlier later : List α} {last item : α}
    (split : items ++ [last] = earlier ++ item :: later) :
    (later = [] ∧ earlier = items ∧ item = last) ∨
      ∃ later', later = later' ++ [last] ∧ items = earlier ++ item :: later' := by
  rcases later.eq_nil_or_concat with rfl | ⟨later', other, rfl⟩
  · obtain ⟨rfl, same⟩ := List.append_inj' split rfl
    exact .inl ⟨rfl, rfl, (List.cons.inj same).1.symm⟩
  · rw [List.concat_eq_append, ← List.cons_append, ← List.append_assoc] at split
    obtain ⟨same, other'⟩ := List.append_inj' split rfl
    cases other'
    exact .inr ⟨later', List.concat_eq_append, same⟩

theorem Books.turned (books : Books deeds a) (turned : Turned a deed a') :
    Books (deeds ++ deed.toList) a' := by
  cases deed with
  | none =>
      rw [Option.toList_none, List.append_nil]
      refine ⟨?_, ?_, books.paired, books.exclusive⟩
      · rw [turned.scheduler_of_unseen]
        exact books.held
      · intro request piece last
        exact turned.still_answering (books.pending request piece last)
  | some deed =>
      rw [Option.toList_some]
      refine ⟨?_, ?_, ?_, ?_⟩
      · intro piece
        rw [heldFor_concat]
        exact turned.held (books.held piece)
      · intro request piece last
        obtain rfl : deed = .assigned request piece := by simpa using last
        cases turned with
        | assigned idle next chosen => rfl
      · intro earlier request piece next later split
        rcases concat_eq_append_cons split with
          ⟨empty, -⟩ | ⟨later', tail, before⟩
        · contradiction
        · cases later' with
          | nil =>
              obtain ⟨rfl, -⟩ := List.cons.inj tail
              refine turned.after_assigned (books.pending request piece ?_)
              rw [before, List.getLast?_concat]
          | cons next' later' =>
              obtain ⟨rfl, -⟩ := List.cons.inj tail
              exact books.paired earlier request piece next later' before
      · intro earlier request piece later split
        rcases concat_eq_append_cons split with ⟨-, rfl, rfl⟩ | ⟨later', -, before⟩
        · cases turned with
          | assigned idle next chosen =>
              have free := mt (books.held piece).mpr (Scheduler.not_mem_of_choose _ _ chosen)
              simpa using free
        · exact books.exclusive earlier request piece later' before

theorem Books.after (books : Books deeds a) (event : Event) :
    Books (deeds ++ (a.deed? event).toList) (a.after event) := by
  by_cases outside : ∀ inbox, event ≠ .turn inbox
  · obtain ⟨unseen, scheduler, phase⟩ := after_of_outside a outside
    rw [unseen, Option.toList_none, List.append_nil]
    refine ⟨?_, ?_, books.paired, books.exclusive⟩
    · rw [scheduler]
      exact books.held
    · rw [phase]
      exact books.pending
  · simp only [ne_eq, not_forall, not_not] at outside
    obtain ⟨inbox, rfl⟩ := outside
    exact books.turned (a.turned_turn inbox)

/-- An assignment lasts until something frees the piece: nobody else is assigned it meanwhile. -/
theorem Books.heldFor_of_kept {earlier later : List Deed} {request : PieceRequest}
    {piece : UInt32} (books : Books (earlier ++ .assigned request piece :: later) a)
    (kept : ∀ deed ∈ later, deed.frees piece = false) :
    heldFor (earlier ++ .assigned request piece :: later) piece = some request := by
  have exclusive := books.exclusive
  clear books
  induction later using List.reverseRecOn with
  | nil => rw [heldFor_concat, Deed.hold_assigned]
  | append_singleton later deed ih =>
      rw [← List.cons_append, ← List.append_assoc] at exclusive ⊢
      obtain ⟨keptBefore, keptNow⟩ := List.forall_mem_append.mp kept
      have still : heldFor (earlier ++ .assigned request piece :: later) piece = some request := by
        apply ih keptBefore
        intro before other given after split
        apply exclusive before other given (after ++ [deed])
        rw [split]
        simp
      rw [heldFor_concat, Deed.hold_of_kept (keptNow deed (by simp)), still]
      rintro other rfl
      rw [exclusive _ other piece [] rfl] at still
      contradiction

/-- The books are right after everything that can happen to a new scheduler. -/
theorem books_run (blockSize : UInt32) (field : Bitfield) (history : List Event) :
    Books ((start blockSize field).deeds history) ((start blockSize field).run history) := by
  induction history using List.reverseRecOn with
  | nil => exact books_start blockSize field
  | append_singleton past event ih =>
      rw [deeds_concat, run_concat]
      exact ih.after event

end Books

end Assignment

end PeerWire

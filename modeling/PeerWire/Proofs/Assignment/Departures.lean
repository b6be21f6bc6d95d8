import PeerWire.Proofs.Assignment

/-!
What stays in flight for a peer that has gone. The terminal marker of a peer frees whatever
is in flight. But requests and deliveries come by different ways, and the task may look at
either first: a request that was in its inbox long before the marker can be decided on after
it. If its answer still finds the channel open, the piece is in flight for nobody until
somebody else's delivery frees it. `outlives_iff` says that pieces are left behind in this
way, and in no other.
-/

namespace PeerWire

namespace Assignment

/-- Once the marker of a peer was taken up and no request of it is just being answered, a
piece is in flight for it exactly if a request of the peer was assigned the piece after the
marker, the answer found room in its channel, and nothing has freed the piece since. -/
theorem outlives_iff (blockSize : UInt32) (field : Bitfield) (history : List Event) (addr : String)
    (marked : .took (.disconnected addr) ∈ (start blockSize field).deeds history)
    (handled : ∀ request piece,
      ((start blockSize field).deeds history).getLast? = some (.assigned request piece) →
        request.addr ≠ addr) :
    (∃ piece ∈ ((start blockSize field).run history).scheduler.inFlight, ∃ request,
      heldFor ((start blockSize field).deeds history) piece = some request ∧
        request.addr = addr) ↔
    ∃ earlier request piece later,
      (start blockSize field).deeds history =
        earlier ++ .assigned request piece :: .answered piece :: later ∧
      request.addr = addr ∧ .took (.disconnected addr) ∈ earlier ∧
      ∀ deed ∈ later, deed.frees piece = false := by
  have books := books_run blockSize field history
  generalize (start blockSize field).deeds history = deeds at *
  constructor
  · rintro ⟨piece, inFlight, request, holds, theirs⟩
    obtain ⟨earlier, later, rfl, kept⟩ := exists_of_heldFor holds
    cases later with
    | nil => exact absurd theirs (handled request piece List.getLast?_concat)
    | cons next later =>
        obtain ⟨keptNext, keptLater⟩ := List.forall_mem_cons.mp kept
        rcases books.paired earlier request piece next later rfl with rfl | rfl
        · refine ⟨earlier, request, piece, later, rfl, theirs, ?_, keptLater⟩
          -- A marker frees everything, so it cannot have come since the assignment.
          rcases List.mem_append.mp marked with before | since
          · exact before
          · rcases List.mem_cons.mp since with same | since
            · cases same
            · have frees := kept _ since
              contradiction
        · simp [Deed.frees] at keptNext
  · rintro ⟨earlier, request, piece, later, rfl, theirs, before, kept⟩
    have holds := books.heldFor_of_kept (List.forall_mem_cons.mpr ⟨rfl, kept⟩)
    exact ⟨piece, (books.held piece).mpr (by rw [holds]; rfl), request, holds, theirs⟩

/-- A request that waits when the marker of its peer comes, a task that looks at the
deliveries first, and an answer channel that is still open: the request and the marker are
both handled, and the piece stays in flight for the peer that is gone. -/
theorem outlives_when_overtaken :
    let request : PieceRequest := ⟨"10.0.0.1:6881", ⟨2, [128]⟩, 0⟩
    let marker : Delivery := .disconnected "10.0.0.1:6881"
    let queued : List Event := [.connect 16, .request none request, .deliver none marker]
    let history : List Event :=
      queued ++ [.turn .deliveries, .turn .requests, .turn .requests]
    let scheduler := start 16384 (.empty 2)
    (scheduler.run (queued.take 2)).requests.items = [request] ∧
      (scheduler.run (queued.take 2)).deliveries.items = [] ∧
      (scheduler.run queued).deliveries.items = [marker] ∧
      scheduler.deeds history = [.took marker, .assigned request 0, .answered 0] ∧
      (scheduler.run history).requests.items = [] ∧
      (scheduler.run history).phase = .idle ∧
      (scheduler.run history).scheduler.inFlight = [0] ∧
      heldFor (scheduler.deeds history) 0 = some request := by
  decide

/-- The same with a task that looks at the requests first. -/
theorem outlives_iff_in_order :
    let request : PieceRequest := ⟨"10.0.0.1:6881", ⟨2, [128]⟩, 0⟩
    let marker : Delivery := .disconnected "10.0.0.1:6881"
    let history : List Event := [.connect 16, .request none request, .deliver none marker,
      .turn .requests, .turn .requests, .turn .deliveries]
    let deeds := (start 16384 (.empty 2)).deeds history
    deeds = [.assigned request 0, .answered 0, .took marker] ∧
      ¬ ∃ earlier request piece later,
        deeds = earlier ++ .assigned request piece :: .answered piece :: later ∧
        request.addr = "10.0.0.1:6881" ∧ .took marker ∈ earlier ∧
        ∀ deed ∈ later, deed.frees piece = false := by
  intro request marker history deeds
  have done : deeds = [.assigned request 0, .answered 0, .took marker] := by decide
  have empty : ((start 16384 (.empty 2)).run history).scheduler.inFlight = [] := by decide
  refine ⟨done, ?_⟩
  refine mt (outlives_iff 16384 (.empty 2) history "10.0.0.1:6881" (by decide) ?_).mpr ?_
  · intro other piece last
    rw [show (start 16384 (.empty 2)).deeds history = _ from done] at last
    cases last
  · rintro ⟨piece, inFlight, -⟩
    rw [empty] at inFlight
    cases inFlight

end Assignment

end PeerWire

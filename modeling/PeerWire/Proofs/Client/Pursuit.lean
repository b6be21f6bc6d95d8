import PeerWire.Proofs.Assignment
import PeerWire.Proofs.Bitfield
import PeerWire.Proofs.Conversation.Calls
import PeerWire.Proofs.Session.Dealings

/-!
Why a remote that holds something we lack is not left waiting. A piece request is a token:
it is made when something about the remote or about us has changed, it shows what the
remote held then, and it is used up when the scheduler looks at it, whether or not there is
a piece to assign. `Pursuit` is all that this depends on in a connection and its scheduler.

Two facts carry the argument. A piece that is in flight is being asked for or is on its way
back. And as long as the remote offers something, there is something left that can move:
the reader has come to a point from which it considers a request, or a token of what the
remote holds now waits, or all that is offered is in flight, or the remote is being asked
for some piece. `Pursuit.Sound` states both. Each thing that can happen keeps it.
-/

namespace PeerWire

/-! ### What is considered -/

/-- A piece request is considered once the errand is done, or is what the errand is about. -/
def Errand.prompts : Errand → Bool
  | .deliver _ | .announce _ true | .request _ => true
  | .announce _ false | .cancel _ => false

/-- The errand that a handling has come to. -/
def Progress.errand? : Progress → Option Errand
  | .handing errand => some errand
  | .done _ => none

namespace Standing

/-- The remote holds the piece, and we lack it. -/
def Offers (standing : Standing) (field : Bitfield) (index : Nat) : Prop :=
  standing.remote.has index = true ∧ field.has index = false

/-- What comes of considering a piece request: it is offered, or waits for our interest to
be announced, or we may not ask, or there is nothing to ask for. -/
inductive Considered (standing : Standing) (field : Bitfield) : Option Errand → Prop where
  | announcing (interested : Bool) : Considered standing field (some (.announce interested true))
  | requesting : Considered standing field (some (.request standing.remote))
  | choked (choking : standing.peerChoking = true) : Considered standing field none
  | content (nothing : ∀ index, ¬ standing.Offers field index) : Considered standing field none

/-- Where we are not interested, the remote offers nothing. -/
def Honest (standing : Standing) (field : Bitfield) : Prop :=
  standing.amInterested = false → ∀ index, ¬ standing.Offers field index

end Standing

namespace Conversation

variable {c : Conversation} {field : Bitfield}

theorem considered_afterInterest (canonical : field.Canonical)
    (same : c.standing.remote.pieces = field.pieces) (honest : c.standing.Honest field) :
    c.standing.Considered field (c.afterInterest field true).errand? := by
  have decided : c.afterInterest field true = c.considerRequest field := rfl
  rw [decided, considerRequest_eq]
  split
  · exact .requesting
  · rename_i mayNot
    cases interested : c.standing.amInterested with
    | false => exact .content (honest interested)
    | true =>
        cases choking : c.standing.peerChoking with
        | true => exact .choked choking
        | false =>
            have complete : field.isComplete = true := by
              simpa [mayRequest, interested, choking] using mayNot
            refine .content ?_
            rintro index ⟨theirs, lacking⟩
            have inside : index < c.standing.remote.size := by
              rw [Bitfield.has, Bool.and_eq_true, decide_eq_true_eq] at theirs
              exact theirs.1
            rw [Bitfield.size, same] at inside
            rw [canonical.has_of_isComplete complete inside] at lacking
            contradiction

/-- Once our interest is recomputed, it is right. -/
theorem considered_reviewInterest (canonical : field.Canonical)
    (fit : c.standing.remote.Canonical) (same : c.standing.remote.pieces = field.pieces) :
    (c.reviewInterest field true).1.standing.Considered field
        (c.reviewInterest field true).2.errand? ∧
      (c.reviewInterest field true).1.standing.Honest field ∧
      (c.reviewInterest field true).1.standing.remote = c.standing.remote ∧
      (c.reviewInterest field true).1.pieces = c.pieces := by
  have nothing : field.lacksSomeOf c.standing.remote = false →
      ∀ index, ¬ c.standing.Offers field index := by
    rintro settled index ⟨theirs, lacking⟩
    have inside : index < field.size := by
      rw [Bitfield.has, Bool.and_eq_true, decide_eq_true_eq, Bitfield.size, same] at theirs
      exact theirs.1
    have some := (canonical.lacksSomeOf_iff fit same.symm).mpr ⟨index, inside, theirs, lacking⟩
    rw [settled] at some
    contradiction
  unfold reviewInterest
  dsimp only
  split
  · rename_i unchanged
    have honest : c.standing.Honest field := fun idle => nothing (unchanged.trans idle)
    exact ⟨considered_afterInterest canonical same honest, honest, rfl, rfl⟩
  · exact ⟨.announcing _, nothing, rfl, rfl⟩

/-- What handling a message comes to first. -/
inductive Opening (c : Conversation) (field : Bitfield) (message : Message) :
    Conversation × Progress → Prop where
  | fails (fault : PeerFault) : Opening c field message (c, .fail fault)
  | delivers {block : Block} (brings : message.block? = some block) :
      Opening c field message (c, .handing (.deliver block))
  /-- Nothing is to be considered. -/
  | passes {c' : Conversation} {progress : Progress} (brings : message.block? = none)
      (pieces : c'.pieces = c.pieces)
      (remote : c'.standing.remote = c.standing.remote)
      (interest : c'.standing.amInterested = c.standing.amInterested)
      (choking : c.standing.peerChoking = true → c'.standing.peerChoking = true)
      (quiet : progress.errand? = none ∨ ∃ ref, progress.errand? = some (.cancel ref)) :
      Opening c field message (c', progress)
  /-- Our interest is recomputed after the remote has told something about itself. -/
  | reviews {c' : Conversation} (brings : message.block? = none) (pieces : c'.pieces = c.pieces)
      (fit : c'.standing.remote.Canonical) (sized : c'.Sized) :
      Opening c field message (c'.reviewInterest field true)

theorem opening_receive (field : Bitfield) (fit : c.standing.remote.Canonical) (sized : c.Sized)
    (now : Nat) (message : Message) : Opening c field message (c.receive field now message) := by
  cases message with
  | keepAlive => exact .passes rfl rfl rfl rfl id (.inl rfl)
  | choke => exact .passes rfl rfl rfl rfl (fun _ => rfl) (.inl rfl)
  | interested => exact .passes rfl rfl rfl rfl id (.inl rfl)
  | notInterested => exact .passes rfl rfl rfl rfl id (.inl rfl)
  | request ref => exact .passes rfl rfl rfl rfl id (.inl rfl)
  | port number => exact .passes rfl rfl rfl rfl id (.inl rfl)
  | cancel ref => exact .passes rfl rfl rfl rfl id (.inr ⟨ref, rfl⟩)
  | piece block => exact .delivers rfl
  | unknown id payload => exact .fails _
  | unchoke => exact .reviews rfl rfl fit sized
  | havePiece index =>
      unfold receive
      dsimp only
      split
      · exact .fails _
      · rename_i remote added
        exact .reviews rfl rfl (fit.set added).1 ((Bitfield.pieces_of_set added).trans sized)
  | bitfield bits =>
      unfold receive
      dsimp only
      split
      · exact .fails _
      · rename_i remote read
        obtain ⟨rfl, canonical⟩ := Bitfield.ofBytes?_eq_ok_iff.mp read
        exact .reviews rfl rfl canonical rfl

end Conversation

/-! ### The state of the pursuit -/

/-- What the fetching of pieces depends on. -/
structure Pursuit where
  standing : Standing
  /-- What we hold ourselves. -/
  field : Bitfield
  /-- What the reader is handing over. -/
  errand? : Option Errand
  /-- The requests that wait for the scheduler. -/
  tokens : List PieceRequest
  /-- The deliveries that wait for the scheduler. -/
  returned : List Delivery
  scheduler : Scheduler
  /-- The pieces that the remote is being asked for and has not sent. -/
  asked : List UInt32

/-- The piece of a delivered block. -/
def Delivery.piece? : Delivery → Option UInt32
  | .block _ sent => some sent.piece
  | .disconnected _ => none

namespace Pursuit

/-- The pieces of the blocks that have come and are not taken into account yet. -/
def returning (p : Pursuit) : List UInt32 :=
  (p.errand?.bind Errand.block?).toList.map (·.piece) ++ p.returned.filterMap Delivery.piece?

/-- Why a remote is not left waiting. -/
inductive Driven (p : Pursuit) : Prop where
  | content (nothing : ∀ index, ¬ p.standing.Offers p.field index)
  | choked (choking : p.standing.peerChoking = true)
  | prompted {errand : Errand} (handing : p.errand? = some errand) (prompts : errand.prompts = true)
  /-- A request waits, with what the remote holds now. -/
  | token {request : PieceRequest} (waits : request ∈ p.tokens)
      (current : request.remote = p.standing.remote)
  | fetched (all : ∀ index, p.standing.Offers p.field index →
      UInt32.ofNat index ∈ p.scheduler.inFlight)
  | asked {piece : UInt32} (asking : piece ∈ p.asked)

/-- Piece numbers are words, and both sides count the same pieces. -/
structure Measured (p : Pursuit) : Prop where
  field : p.field.Canonical
  remote : p.standing.remote.Canonical
  same : p.standing.remote.pieces = p.field.pieces
  few : p.field.size ≤ 2 ^ 32

/-- The pursuit can go on. -/
structure Sound (p : Pursuit) : Prop extends Measured p where
  honest : p.standing.Honest p.field
  /-- Before the end of the connection is called for, nothing but blocks is delivered. -/
  blocks : ∀ delivery ∈ p.returned, ∃ addr block, delivery = .block addr block
  announcing : ∀ interested thenRequest,
    p.errand? = some (.announce interested thenRequest) → thenRequest = true
  requesting : ∀ remote, p.errand? = some (.request remote) → remote = p.standing.remote
  accounted : ∀ piece ∈ p.scheduler.inFlight, piece ∈ p.asked ∨ piece ∈ p.returning
  driven : p.Driven

/-- With nothing left that can move, and a remote that lets us ask, there is nothing that
the remote offers. -/
theorem Sound.nothing_offered {p : Pursuit} (sound : p.Sound) (idle : p.errand? = none)
    (tokens : p.tokens = []) (returned : p.returned = []) (asked : p.asked = [])
    (willing : p.standing.peerChoking = false) (index : Nat) :
    ¬ p.standing.Offers p.field index := by
  intro offered
  cases sound.driven with
  | content nothing => exact nothing index offered
  | choked choking =>
      rw [willing] at choking
      contradiction
  | prompted handing prompts =>
      rw [idle] at handing
      contradiction
  | token waits current =>
      rw [tokens] at waits
      contradiction
  | fetched all =>
      have accounted := sound.accounted _ (all index offered)
      simp [asked, returning, idle, returned] at accounted
  | asked asking =>
      rw [asked] at asking
      contradiction

/-! ### What keeps it going -/

section Steps

variable {p : Pursuit}

/-- After a request was considered, the pursuit is driven by what came of that. -/
theorem Measured.considered (measured : p.Measured) (honest : p.standing.Honest p.field)
    (blocks : ∀ delivery ∈ p.returned, ∃ addr block, delivery = .block addr block)
    (accounted : ∀ piece ∈ p.scheduler.inFlight, piece ∈ p.asked ∨ piece ∈ p.returning)
    (considered : p.standing.Considered p.field p.errand?) : p.Sound := by
  obtain ⟨errand, here⟩ : ∃ errand, p.errand? = errand := ⟨_, rfl⟩
  rw [here] at considered
  cases considered with
  | announcing interested =>
      refine ⟨measured, honest, blocks, ?_, ?_, accounted, .prompted here rfl⟩
      · intro other thenRequest same
        cases here.symm.trans same
        rfl
      · intro remote same
        cases here.symm.trans same
  | requesting =>
      refine ⟨measured, honest, blocks, ?_, ?_, accounted, .prompted here rfl⟩
      · intro interested thenRequest same
        cases here.symm.trans same
      · intro remote same
        cases here.symm.trans same
        rfl
  | choked choking =>
      refine ⟨measured, honest, blocks, ?_, ?_, accounted, .choked choking⟩
      · rw [here]
        exact nofun
      · rw [here]
        exact nofun
  | content nothing =>
      refine ⟨measured, honest, blocks, ?_, ?_, accounted, .content nothing⟩
      · rw [here]
        exact nofun
      · rw [here]
        exact nofun

/-- What drove the pursuit still does where nothing of it was used up. -/
theorem Driven.mono {p' : Pursuit} (driven : p.Driven)
    (remote : p'.standing.remote = p.standing.remote) (field : p'.field = p.field)
    (choking : p.standing.peerChoking = true → p'.standing.peerChoking = true)
    (handing : ∀ errand, p.errand? = some errand → errand.prompts = true →
      p'.errand? = some errand)
    (tokens : ∀ request ∈ p.tokens, request ∈ p'.tokens)
    (flying : p'.scheduler = p.scheduler) (kept : ∀ piece ∈ p.asked, piece ∈ p'.asked) :
    p'.Driven := by
  have offers : ∀ index, p'.standing.Offers p'.field index → p.standing.Offers p.field index := by
    intro index
    rw [Standing.Offers, remote, field]
    exact id
  cases driven with
  | content nothing => exact .content fun index offered => nothing index (offers index offered)
  | choked choked => exact .choked (choking choked)
  | prompted here prompts => exact .prompted (handing _ here prompts) prompts
  | token waits current => exact .token (tokens _ waits) (current.trans remote.symm)
  | fetched all =>
      refine .fetched ?_
      intro index offered
      rw [flying]
      exact all index (offers index offered)
  | asked asking => exact .asked (kept _ asking)

/-- Where no block changes hands, what is in flight stays accounted for. -/
theorem Sound.still_accounted {p' : Pursuit} (sound : p.Sound)
    (blockless : p.errand?.bind Errand.block? = none) (returned : p'.returned = p.returned)
    (flying : p'.scheduler = p.scheduler) (kept : ∀ piece ∈ p.asked, piece ∈ p'.asked) :
    ∀ piece ∈ p'.scheduler.inFlight, piece ∈ p'.asked ∨ piece ∈ p'.returning := by
  intro piece here
  rw [flying] at here
  refine (sound.accounted piece here).imp (kept piece) ?_
  intro back
  rw [returning, blockless] at back
  rw [returning, returned]
  exact List.mem_append_right _ back

/-- The requests go on their way. -/
theorem Sound.carry {asked : List UInt32} (sound : p.Sound)
    (kept : ∀ piece ∈ p.asked, piece ∈ asked) : Sound { p with asked } where
  toMeasured := ⟨sound.field, sound.remote, sound.same, sound.few⟩
  honest := sound.honest
  blocks := sound.blocks
  announcing := sound.announcing
  requesting := sound.requesting
  accounted piece flying := (sound.accounted piece flying).imp_left (kept piece)
  driven := sound.driven.mono rfl rfl id (fun _ here _ => here) (fun _ => id) rfl kept

/-- The remote sends a block, which may answer what it was asked for. -/
theorem Sound.answer {block : Block} {asked : List UInt32} (sound : p.Sound)
    (idle : p.errand? = none)
    (kept : ∀ piece ∈ p.asked, piece ∈ asked ∨ piece = block.piece) :
    Sound { p with errand? := some (.deliver block), asked } where
  toMeasured := ⟨sound.field, sound.remote, sound.same, sound.few⟩
  honest := sound.honest
  blocks := sound.blocks
  announcing := nofun
  requesting := nofun
  accounted piece flying := by
    rcases sound.accounted piece flying with asking | back
    · rcases kept piece asking with still | rfl
      · exact .inl still
      · exact .inr List.mem_cons_self
    · right
      unfold returning at back ⊢
      rw [idle] at back
      exact List.mem_cons_of_mem _ back
  driven := .prompted rfl rfl

/-- The remote sends something that calls for nothing, or cancels a request of its own. -/
theorem Sound.listen {standing : Standing} {errand? : Option Errand} {asked : List UInt32}
    (sound : p.Sound) (idle : p.errand? = none) (remote : standing.remote = p.standing.remote)
    (interest : standing.amInterested = p.standing.amInterested)
    (choking : p.standing.peerChoking = true → standing.peerChoking = true)
    (quiet : errand? = none ∨ ∃ ref, errand? = some (.cancel ref))
    (kept : ∀ piece ∈ p.asked, piece ∈ asked) :
    Sound { p with standing, errand?, asked } where
  toMeasured := ⟨sound.field, remote ▸ sound.remote, remote ▸ sound.same, sound.few⟩
  honest uninterested index offered :=
    sound.honest (interest.symm.trans uninterested) index (by
      rw [Standing.Offers, ← remote]
      exact offered)
  blocks := sound.blocks
  announcing interested thenRequest handing := by
    rcases quiet with none | ⟨ref, cancels⟩
    · cases none.symm.trans handing
    · cases cancels.symm.trans handing
  requesting other handing := by
    rcases quiet with none | ⟨ref, cancels⟩
    · cases none.symm.trans handing
    · cases cancels.symm.trans handing
  accounted := sound.still_accounted (by rw [idle]; rfl) rfl rfl kept
  driven := by
    refine sound.driven.mono remote rfl choking ?_ (fun _ => id) rfl kept
    intro errand handing prompts
    cases idle.symm.trans handing

/-- The remote tells something about itself, and a request is considered. -/
theorem Sound.review {standing : Standing} {errand? : Option Errand} {asked : List UInt32}
    (sound : p.Sound) (idle : p.errand? = none) (remote : standing.remote.Canonical)
    (same : standing.remote.pieces = p.field.pieces) (honest : standing.Honest p.field)
    (considered : standing.Considered p.field errand?)
    (kept : ∀ piece ∈ p.asked, piece ∈ asked) :
    Sound { p with standing, errand?, asked } := by
  refine Measured.considered ⟨sound.field, remote, same, sound.few⟩ honest sound.blocks ?_
    considered
  exact sound.still_accounted (by rw [idle]; rfl) rfl rfl kept

/-- The scheduler gets a block, and a request is considered. -/
theorem Sound.deliver {standing : Standing} {errand? : Option Errand} {asked : List UInt32}
    {block : Block} (sound : p.Sound) (addr : String)
    (handing : p.errand? = some (.deliver block))
    (remote : standing.remote = p.standing.remote) (honest : standing.Honest p.field)
    (considered : standing.Considered p.field errand?)
    (kept : ∀ piece ∈ p.asked, piece ∈ asked) :
    Sound { p with standing, errand?, returned := p.returned ++ [.block addr block], asked } := by
  refine Measured.considered
    ⟨sound.field, remote ▸ sound.remote, remote ▸ sound.same, sound.few⟩ honest ?_ ?_ considered
  · exact List.forall_mem_append.mpr
      ⟨sound.blocks, List.forall_mem_singleton.mpr ⟨addr, block, rfl⟩⟩
  · intro piece flying
    refine (sound.accounted piece flying).imp (kept piece) ?_
    intro back
    unfold returning at back ⊢
    rw [handing] at back
    rw [List.filterMap_append]
    rcases List.mem_cons.mp back with rfl | earlier
    · exact List.mem_append_right _ (List.mem_append_right _ List.mem_cons_self)
    · exact List.mem_append_right _ (List.mem_append_left _ earlier)

/-- Our interest is announced, and a request is considered. -/
theorem Sound.announce {interested : Bool} {errand? : Option Errand} {asked : List UInt32}
    (sound : p.Sound) (handing : p.errand? = some (.announce interested true))
    (considered : p.standing.Considered p.field errand?)
    (kept : ∀ piece ∈ p.asked, piece ∈ asked) : Sound { p with errand?, asked } := by
  refine Measured.considered ⟨sound.field, sound.remote, sound.same, sound.few⟩ sound.honest
    sound.blocks ?_ considered
  exact sound.still_accounted (by rw [handing]; rfl) rfl rfl kept

/-- The scheduler gets a request, with what the remote holds now. -/
theorem Sound.request {asked : List UInt32} (sound : p.Sound) (request : PieceRequest)
    (handing : p.errand? = some (.request request.remote))
    (kept : ∀ piece ∈ p.asked, piece ∈ asked) :
    Sound { p with errand? := none, tokens := p.tokens ++ [request], asked } where
  toMeasured := ⟨sound.field, sound.remote, sound.same, sound.few⟩
  honest := sound.honest
  blocks := sound.blocks
  announcing := nofun
  requesting := nofun
  accounted := sound.still_accounted (by rw [handing]; rfl) rfl rfl kept
  driven := .token (List.mem_append_right _ List.mem_cons_self) (sound.requesting _ handing)

/-- A cancellation of the remote is handed over. -/
theorem Sound.cancel {ref : BlockRef} {asked : List UInt32} (sound : p.Sound)
    (handing : p.errand? = some (.cancel ref)) (kept : ∀ piece ∈ p.asked, piece ∈ asked) :
    Sound { p with errand? := none, asked } where
  toMeasured := ⟨sound.field, sound.remote, sound.same, sound.few⟩
  honest := sound.honest
  blocks := sound.blocks
  announcing := nofun
  requesting := nofun
  accounted := sound.still_accounted (by rw [handing]; rfl) rfl rfl kept
  driven := by
    refine sound.driven.mono rfl rfl id ?_ (fun _ => id) rfl kept
    intro errand here prompts
    cases handing.symm.trans here
    contradiction

/-- The scheduler finds nothing to assign. If the request was the last that showed what the
remote holds now, then all of that is held or in flight. -/
theorem Sound.passOver {request : PieceRequest} {later : List PieceRequest} (sound : p.Sound)
    (next : p.tokens = request :: later)
    (nothing : p.scheduler.choose? p.field request.remote = none) :
    Sound { p with tokens := later } where
  toMeasured := ⟨sound.field, sound.remote, sound.same, sound.few⟩
  honest := sound.honest
  blocks := sound.blocks
  announcing := sound.announcing
  requesting := sound.requesting
  accounted := sound.accounted
  driven := by
    cases sound.driven with
    | content nothing => exact .content nothing
    | choked choking => exact .choked choking
    | prompted handing prompts => exact .prompted handing prompts
    | token waits current =>
        rw [next] at waits
        rcases List.mem_cons.mp waits with rfl | still
        · refine .fetched ?_
          rintro index ⟨theirs, lacking⟩
          exact p.scheduler.mem_of_choose_none nothing (current ▸ theirs) lacking
        · exact .token still current
    | fetched all => exact .fetched all
    | asked asking => exact .asked asking

/-- The scheduler assigns a piece, and the remote is going to be asked for it. -/
theorem Sound.assign {piece : UInt32} {asked : List UInt32} (sound : p.Sound)
    (later : List PieceRequest) (asking : piece ∈ asked) (kept : ∀ other ∈ p.asked, other ∈ asked) :
    Sound { p with tokens := later, scheduler := p.scheduler.reserve piece, asked } where
  toMeasured := ⟨sound.field, sound.remote, sound.same, sound.few⟩
  honest := sound.honest
  blocks := sound.blocks
  announcing := sound.announcing
  requesting := sound.requesting
  accounted other flying := by
    rcases (p.scheduler.mem_reserve piece other).mp flying with rfl | before
    · exact .inl asking
    · exact (sound.accounted other before).imp_left (kept other)
  driven := .asked asking

/-- What we hold after a block: its piece, if there is such a piece. -/
theorem Measured.onBlock (measured : p.Measured) (addr : String) (block : Block) :
    ∃ field, (p.scheduler.onDelivery p.field (.block addr block)).2 = field ∧ field.Canonical ∧
      field.pieces = p.field.pieces ∧ ∀ index, index < p.field.size →
        field.has index = (p.field.has index || decide (index = block.piece.toNat)) := by
  unfold Scheduler.onDelivery
  dsimp only
  cases added : p.field.set block.piece.toNat with
  | error fault =>
      refine ⟨p.field, rfl, measured.field, rfl, ?_⟩
      intro index inside
      have beyond : p.field.size ≤ block.piece.toNat := by
        unfold Bitfield.set at added
        split at added
        · assumption
        · contradiction
      have other : index ≠ block.piece.toNat := by omega
      simp [other]
  | ok field =>
      obtain ⟨canonical, has⟩ := measured.field.set added
      exact ⟨field, rfl, canonical, Bitfield.pieces_of_set added, fun index _ => has index⟩

/-- The scheduler takes a block into account. Its piece is no longer in flight, and no
longer lacking either. -/
theorem Sound.take {delivery : Delivery} {later : List Delivery} (sound : p.Sound)
    (next : p.returned = delivery :: later) :
    Sound { p with
      returned := later
      field := (p.scheduler.onDelivery p.field delivery).2
      scheduler := (p.scheduler.onDelivery p.field delivery).1 } := by
  have blocks := sound.blocks
  rw [next] at blocks
  obtain ⟨addr, block, rfl⟩ := blocks delivery List.mem_cons_self
  obtain ⟨field, taken, canonical, same, has⟩ := sound.toMeasured.onBlock addr block
  rw [taken]
  have offers : ∀ index, p.standing.Offers field index →
      p.standing.Offers p.field index ∧ UInt32.ofNat index ≠ block.piece := by
    rintro index ⟨theirs, lacking⟩
    have inside : index < p.field.size := by
      rw [Bitfield.has, Bool.and_eq_true, decide_eq_true_eq, Bitfield.size, sound.same] at theirs
      exact theirs.1
    rw [has index inside, Bool.or_eq_false_iff, decide_eq_false_iff_not] at lacking
    refine ⟨⟨theirs, lacking.1⟩, ?_⟩
    intro named
    have few := sound.few
    have number : (UInt32.ofNat index).toNat = index := by
      rw [UInt32.toNat_ofNat']
      exact Nat.mod_eq_of_lt (by omega)
    exact lacking.2 (by rw [← named, number])
  refine ⟨⟨canonical, sound.remote, sound.same.trans same.symm, ?_⟩, ?_, ?_, sound.announcing,
    sound.requesting, ?_, ?_⟩
  · rw [Bitfield.size, same]
    exact sound.few
  · intro uninterested index offered
    exact sound.honest uninterested index (offers index offered).1
  · exact fun other inside => blocks other (List.mem_cons_of_mem _ inside)
  · intro piece flying
    obtain ⟨before, other⟩ := (p.scheduler.mem_release block.piece piece).mp flying
    refine (sound.accounted piece before).imp_right ?_
    intro back
    unfold returning at back ⊢
    rw [next] at back
    rcases List.mem_append.mp back with inHand | waiting
    · exact List.mem_append_left _ inHand
    · rcases List.mem_cons.mp waiting with rfl | still
      · exact absurd rfl other
      · exact List.mem_append_right _ still
  · cases sound.driven with
    | content nothing => exact .content fun index offered => nothing index (offers index offered).1
    | choked choking => exact .choked choking
    | prompted handing prompts => exact .prompted handing prompts
    | token waits current => exact .token waits current
    | fetched all =>
        refine .fetched ?_
        intro index offered
        obtain ⟨before, other⟩ := offers index offered
        exact (p.scheduler.mem_release _ _).mpr ⟨all index before, other⟩
    | asked asking => exact .asked asking

end Steps

end Pursuit

end PeerWire

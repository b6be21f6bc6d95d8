import Mathlib.Data.List.Destutter
import PeerWire.Proofs.Bitfield
import PeerWire.Proofs.Conversation.Calls

/-!
Our interest over a run of calls that all succeed. The calls that recompute it leave it as
what we hold and what the remote holds make it, and the others leave it alone; each change is
announced, and nothing else is. So the messages on their way out are the values that
`amInterested` takes on, `changes` of it since a start without interest, and they alternate.
-/

namespace PeerWire

/-! ### The changes of a flag -/

/-- The values a flag takes on when it changes, one after the other. -/
def changes (flag : Bool) (flags : List Bool) : List Bool :=
  (flags.destutter' (· ≠ ·) flag).tail

theorem cons_changes (flag : Bool) (flags : List Bool) :
    flag :: changes flag flags = flags.destutter' (· ≠ ·) flag := by
  induction flags with
  | nil => rfl
  | cons next flags ih =>
      rw [changes, List.destutter'_cons]
      by_cases differs : flag ≠ next
      · rw [if_pos differs]
        rfl
      · rw [if_neg differs]
        exact ih

theorem changes_cons (flag next : Bool) (flags : List Bool) : changes flag (next :: flags) =
    if next = flag then changes flag flags else next :: changes next flags := by
  by_cases same : next = flag
  · subst same
    rw [if_pos rfl, changes, List.destutter'_cons_neg _ (by simp)]
    rfl
  · rw [if_neg same, changes, List.destutter'_cons_pos _ (Ne.symm same), cons_changes]
    rfl

theorem changes_concat (flag next : Bool) (flags : List Bool) : changes flag (flags ++ [next]) =
    changes flag flags ++ if next = flags.getLastD flag then [] else [next] := by
  induction flags generalizing flag with
  | nil => exact changes_cons flag next []
  | cons first flags ih =>
      rw [List.cons_append, changes_cons, changes_cons, List.getLastD_cons]
      by_cases same : first = flag
      · subst same
        rw [if_pos rfl, if_pos rfl]
        exact ih first
      · rw [if_neg same, if_neg same, ih first, List.cons_append]

/-- A flag is what it last became. -/
theorem getLastD_changes (flag : Bool) (flags : List Bool) :
    (changes flag flags).getLastD flag = flags.getLastD flag := by
  induction flags generalizing flag with
  | nil => rfl
  | cons next flags ih =>
      rw [changes_cons, List.getLastD_cons]
      by_cases same : next = flag
      · subst same
        rw [if_pos rfl]
        exact ih next
      · rw [if_neg same, List.getLastD_cons]
        exact ih next

/-- Changes go to and fro. -/
theorem getElem?_changes {flag next : Bool} {flags : List Bool} {n : Nat}
    (change : (changes flag flags)[n]? = some next) : next = (flag != decide (n % 2 = 0)) := by
  have alternate : (flag :: changes flag flags).IsChain (· ≠ ·) := by
    rw [cons_changes]
    exact List.isChain_destutter' _ flags flag
  generalize changes flag flags = later at alternate change
  induction n generalizing flag later with
  | zero =>
      cases later with
      | nil => contradiction
      | cons first later =>
          obtain rfl : first = next := by simpa using change
          have differs := (List.isChain_cons_cons.mp alternate).1
          cases flag <;> cases first <;> simp_all
  | succ n ih =>
      cases later with
      | nil => contradiction
      | cons first later =>
          obtain ⟨differs, rest⟩ := List.isChain_cons_cons.mp alternate
          have turned := ih later rest (by simpa using change)
          rw [turned]
          have parity : decide ((n + 1) % 2 = 0) = !decide (n % 2 = 0) := by
            by_cases even : n % 2 = 0
            · simp [even, Nat.add_mod]
            · simp [even, show (n + 1) % 2 = 0 by omega]
          rw [parity]
          revert differs
          cases flag <;> cases first <;> simp

namespace Conversation

/-! ### A call that succeeds -/

section Succeeded

variable {c c' : Conversation} {call : Call} {held : Bitfield} {offers : List Offer}

/-- A call that succeeds leaves the interest reviewed, if it reviews it, and has announced a
change. -/
theorem Answers.interest (sized : c.Sized)
    (answers : c.Answers call held offers (c', .ok)) :
    (c'.standing.amInterested =
        if call.reviews then (heldAtReview held offers).lacksSomeOf c'.standing.remote
        else c.standing.amInterested) ∧
      Announced c offers c' := by
  generalize ended : (c', Progress.ok) = stand at answers
  cases answers.stands sized with
  | settled reviewed announced mayNot =>
      cases ended
      exact ⟨reviewed.interest, announced⟩
  | @asked offers c'' result held' reviewed announced considers may =>
      obtain rfl : c' = c'' := congrArg Prod.fst ended
      refine ⟨?_, announced.concat ?_⟩
      · rw [heldAtReview_concat rfl]
        exact reviewed.interest
      · cases result <;> rfl
  | _ => cases ended

/-- What others get does not depend on what is known. -/
theorem emitted_of_same {standing : Standing} (same : c' = { c with standing }) :
    c'.emitted offers = c.emitted offers := by
  subst same
  rfl

end Succeeded

/-! ### A run of calls -/

/-- A call that was answered, with what we held when it began, what it offered on its way,
and the conversation it left behind. -/
structure Answered where
  call : Call
  held : Bitfield
  offers : List Offer
  after : Conversation

/-- What we held when the call recomputed our interest. -/
def Answered.ours (one : Answered) : Bitfield :=
  heldAtReview one.held one.offers

/-- Calls that all succeed, one after the other. Before each of them and on its way, what
we hold may become anything. -/
inductive Ran (c : Conversation) : List Answered → Conversation → Prop where
  | start : Ran c [] c
  | next {record : List Answered} {c' : Conversation} (before : Ran c record c') (one : Answered)
      (answers : c'.Answers one.call one.held one.offers (one.after, .ok)) :
      Ran c (record ++ [one]) one.after

/-- The messages that a run has put on their way out. -/
def said (c : Conversation) (record : List Answered) : List Message :=
  (record.flatMap fun one => c.emitted one.offers).filterMap Emission.outbound?

/-- Our interest after each call of a run. -/
def interests (record : List Answered) : List Bool :=
  record.map fun one => one.after.standing.amInterested

section Runs

variable {c c' : Conversation} {record : List Answered}

theorem said_concat (c : Conversation) (record : List Answered) (one : Answered) :
    c.said (record ++ [one]) =
      c.said record ++ (c.emitted one.offers).filterMap Emission.outbound? := by
  simp [said]

theorem Ran.reached (ran : c.Ran record c') : c.Reached c' := by
  induction ran with
  | start => exact .start
  | next before one answers ih => exact ih.next answers

/-- Every call of a run was answered where the calls before it had led. -/
theorem Ran.reaches {earlier later : List Answered} {one : Answered} (ran : c.Ran record c')
    (listed : record = earlier ++ one :: later) : ∃ before, c.Ran earlier before ∧
      before.Answers one.call one.held one.offers (one.after, .ok) := by
  induction ran generalizing later with
  | start => simp at listed
  | @next record c' ran last answers ih =>
      rcases later.eq_nil_or_concat with rfl | ⟨others, other, rfl⟩
      · obtain ⟨rfl, same⟩ := List.append_inj' listed rfl
        cases same
        exact ⟨c', ran, answers⟩
      · rw [List.concat_eq_append, ← List.cons_append, ← List.append_assoc] at listed
        exact ih (List.append_inj' listed rfl).1

/-- What was said are the changes of our interest. -/
theorem Ran.said_eq (fit : c.Fit) (ran : c.Ran record c') :
    c'.standing.amInterested = (interests record).getLastD c.standing.amInterested ∧
      c.said record =
        (changes c.standing.amInterested (interests record)).map Message.ofInterest := by
  induction ran with
  | start => exact ⟨rfl, rfl⟩
  | @next record c' before one answers ih =>
      obtain ⟨flag, words⟩ := ih
      obtain ⟨standing, same⟩ := before.reached.same_connection
      have announced := (answers.interest (before.reached.fit fit).sized).2
      have flags : interests (record ++ [one]) =
          interests record ++ [one.after.standing.amInterested] := by simp [interests]
      refine ⟨by simp [flags], ?_⟩
      rw [said_concat, words, flags, changes_concat, List.map_append, ← flag,
        ← emitted_of_same same, announced]
      congr 1
      split <;> rfl

end Runs

/-- What a run of successful calls makes of our interest, whatever we hold meanwhile.

A call that recomputes it leaves it true exactly if the remote holds a piece that we lacked
at that moment; every other call leaves it alone. `interested` and `notInterested` are sent
in turn, beginning with `interested`, one for each change, so the last of them tells the
interest. -/
theorem interest_exact_and_edge_triggered (addr : String) (pieces : UInt64) (channel : Nat)
    (record : List Answered) (c : Conversation) (ran : (start addr pieces channel).Ran record c) :
    (∀ earlier one later, record = earlier ++ one :: later →
      (one.call.reviews = true → one.ours.pieces = pieces → one.ours.Canonical →
        (one.after.standing.amInterested = true ↔ ∃ index < pieces.toNat,
          one.after.standing.remote.has index = true ∧ one.ours.has index = false)) ∧
      (one.call.reviews = false →
        one.after.standing.amInterested = (interests earlier).getLastD false)) ∧
    (start addr pieces channel).said record =
      (changes false (interests record)).map Message.ofInterest ∧
    (∀ n message, ((start addr pieces channel).said record)[n]? = some message →
      message = if n % 2 = 0 then .interested else .notInterested) ∧
    (c.standing.amInterested = true ↔
      ((start addr pieces channel).said record).getLast? = some .interested) := by
  have fit := fit_start addr pieces channel
  obtain ⟨flag, words⟩ := ran.said_eq fit
  refine ⟨?_, words, ?_, ?_⟩
  · intro earlier one later listed
    obtain ⟨before, led, answers⟩ := ran.reaches listed
    have interest := (answers.interest (led.reached.fit fit).sized).1
    constructor
    · intro reviews same canonical
      have after := answers.fit (led.reached.fit fit)
      obtain ⟨standing, connection⟩ := led.reached.same_connection
      obtain ⟨standing', later⟩ := answers.same_connection
      have swarm : one.after.standing.remote.pieces = pieces := by
        rw [after.sized]
        subst connection
        exact congrArg Conversation.pieces later
      have lacks := canonical.lacksSomeOf_iff after.canonical (same.trans swarm.symm)
      rw [Bitfield.size, same] at lacks
      rw [interest, if_pos reviews]
      exact lacks
    · intro passes
      rw [interest, passes, (led.said_eq fit).1]
      rfl
  · intro n message listed
    rw [words, List.getElem?_map, Option.map_eq_some_iff] at listed
    obtain ⟨next, change, rfl⟩ := listed
    rw [getElem?_changes change]
    by_cases even : n % 2 = 0 <;> simp [even, Message.ofInterest, start]
  · rw [flag, ← getLastD_changes, words, List.getLast?_map, List.getLastD_eq_getLast?]
    cases (changes _ (interests record)).getLast? with
    | none => simp [start]
    | some last => cases last <;> simp [Message.ofInterest]

/-- A piece that the remote announces is wanted until we have it by another way. -/
theorem interest_of_caught_up :
    ∃ record c, (start "10.0.0.7:6881" 4 0).Ran record c ∧
      interests record = [true, true, true, false] ∧
      (start "10.0.0.7:6881" 4 0).said record = [.interested, .notInterested] ∧
      c.standing.amInterested = false := by
  let after (standing : Standing) : Conversation :=
    { start "10.0.0.7:6881" 4 0 with standing }
  let wanting : Standing := { remote := ⟨4, [64]⟩, amInterested := true }
  let unchoked : Standing := { wanting with peerChoking := false }
  let alive : Standing := { unchoked with lastKeepAlive := some 5 }
  let content : Standing := { alive with amInterested := false }
  let nothing : Bitfield := .empty 4
  let announced : Answered :=
    ⟨.handle (.havePiece 1), nothing, [⟨.announce true true, .accepted, nothing⟩], after wanting⟩
  let asked : Answered :=
    ⟨.handle .unchoke, nothing, [⟨.request ⟨4, [64]⟩, .expired, nothing⟩], after unchoked⟩
  let kept : Answered := ⟨.recordKeepAlive, ⟨4, [64]⟩, [], after alive⟩
  let caughtUp : Answered :=
    ⟨.checkInterested, ⟨4, [64]⟩, [⟨.announce false false, .accepted, ⟨4, [64]⟩⟩], after content⟩
  have announcing : (start "10.0.0.7:6881" 4 0).Answers (.handle (.havePiece 1)) nothing []
      (after wanting, .handing (.announce true true)) := .start 0
  have asking : (after wanting).Answers (.handle .unchoke) nothing []
      (after unchoked, .handing (.request ⟨4, [64]⟩)) := .start 1
  have keeping : (after unchoked).Answers .recordKeepAlive ⟨4, [64]⟩ [] (after alive, .ok) :=
    .start 5
  have retracting : (after alive).Answers .checkInterested ⟨4, [64]⟩ []
      (after content, .handing (.announce false false)) := .start 6
  have first : (start "10.0.0.7:6881" 4 0).Ran [announced] (after wanting) :=
    Ran.start.next announced (announcing.goOn .accepted nothing)
  have second : (start "10.0.0.7:6881" 4 0).Ran [announced, asked] (after unchoked) :=
    first.next asked (asking.goOn .expired nothing)
  have third : (start "10.0.0.7:6881" 4 0).Ran [announced, asked, kept] (after alive) :=
    second.next kept keeping
  have fourth : (start "10.0.0.7:6881" 4 0).Ran [announced, asked, kept, caughtUp]
      (after content) :=
    third.next caughtUp (retracting.goOn .accepted ⟨4, [64]⟩)
  obtain ⟨-, said, -, told⟩ :=
    interest_exact_and_edge_triggered "10.0.0.7:6881" 4 0 _ (after content) fourth
  refine ⟨_, _, fourth, rfl, said, ?_⟩
  rw [Bool.eq_false_iff, Ne, told, said]
  decide

end Conversation

/-! ### At a desk -/

/-- A call that succeeds at a desk puts out what a change of our interest calls for. -/
theorem Desk.announces {desk desk' : Desk} {patience : Nat} {call : Call}
    (sized : desk.conversation.Sized)
    (called : desk.call patience call = (desk', .returned (.ok ()))) :
    let before := desk.conversation.standing.amInterested
    let after := desk'.conversation.standing.amInterested
    desk'.outbound.items =
      desk.outbound.items ++ if after = before then [] else [.ofInterest after] := by
  intro before after
  obtain ⟨offers, serves⟩ := serves_call called
  rw [serves.sends.outbound, (serves.answers.interest sized).2]

end PeerWire

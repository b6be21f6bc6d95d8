import Mathlib.Data.List.Induction
import PeerWire.Session.Step

/-!
Histories of a connection, and what can be seen along them. An observation looks at an
event and at the state in which it happens; along a history the observations of its
events follow one another. Histories grow at their end, so what holds of every history
is shown by adding one event to a history for which it holds.
-/

namespace PeerWire.Session

variable {α : Type}

@[simp] theorem run_nil (s : Session) : s.run [] = s := rfl

@[simp] theorem run_concat (s : Session) (past : List Event) (event : Event) :
    s.run (past ++ [event]) = (s.run past).after event := by
  simp [run]

theorem run_append (s : Session) (past later : List Event) :
    s.run (past ++ later) = (s.run past).run later :=
  List.foldl_append

/-- What `look` sees along a history, oldest first. -/
def observe (look : Session → Event → List α) (s : Session) : List Event → List α
  | [] => []
  | event :: history => look s event ++ observe look (s.after event) history

theorem observe_append (look : Session → Event → List α) (s : Session)
    (past later : List Event) :
    observe look s (past ++ later) = observe look s past ++ observe look (s.run past) later := by
  induction past generalizing s with
  | nil => rfl
  | cons first rest ih =>
      have onward : s.run (first :: rest) = (s.after first).run rest := rfl
      rw [List.cons_append, observe, observe, ih, onward, List.append_assoc]

@[simp] theorem observe_concat (look : Session → Event → List α) (s : Session)
    (past : List Event) (event : Event) :
    observe look s (past ++ [event]) = observe look s past ++ look (s.run past) event := by
  rw [observe_append, observe, observe, List.append_nil]

/-- What is seen along a history is seen at some event of it. -/
theorem mem_observe {look : Session → Event → List α} {s : Session} {history : List Event}
    {item : α} : item ∈ observe look s history ↔
      ∃ past event later, history = past ++ event :: later ∧ item ∈ look (s.run past) event := by
  induction history generalizing s with
  | nil => simp [observe]
  | cons first rest ih =>
      rw [observe, List.mem_append, ih]
      constructor
      · rintro (now | ⟨past, event, later, rfl, inside⟩)
        · exact ⟨[], first, rest, rfl, now⟩
        · exact ⟨first :: past, event, later, rfl, inside⟩
      · rintro ⟨past, event, later, split, inside⟩
        cases past with
        | nil =>
            cases split
            exact .inl inside
        | cons _ past =>
            cases split
            exact .inr ⟨past, event, later, rfl, inside⟩

/-- What is kept along a history, event by event, from `kept` on. -/
def trace (keep : α → Session → Event → α) (kept : α) (s : Session) : List Event → α
  | [] => kept
  | event :: history => trace keep (keep kept s event) (s.after event) history

@[simp] theorem trace_concat (keep : α → Session → Event → α) (kept : α) (s : Session)
    (past : List Event) (event : Event) :
    trace keep kept s (past ++ [event]) = keep (trace keep kept s past) (s.run past) event := by
  induction past generalizing kept s with
  | nil => rfl
  | cons first rest ih =>
      have later : s.run (first :: rest) = (s.after first).run rest := rfl
      simp only [List.cons_append, trace, ih, later]

/-- A condition on each event of a history, and on the state in which it happens. -/
def Along (allowed : Session → Event → Prop) (s : Session) : List Event → Prop
  | [] => True
  | event :: history => allowed s event ∧ Along allowed (s.after event) history

@[simp] theorem along_concat (allowed : Session → Event → Prop) (s : Session)
    (past : List Event) (event : Event) :
    Along allowed s (past ++ [event]) ↔ Along allowed s past ∧ allowed (s.run past) event := by
  induction past generalizing s with
  | nil => simp [Along]
  | cons first rest ih =>
      have later : s.run (first :: rest) = (s.after first).run rest := rfl
      simp only [List.cons_append, Along, ih, later, and_assoc]

instance Along.decidable {allowed : Session → Event → Prop}
    [decision : ∀ s event, Decidable (allowed s event)] :
    ∀ s history, Decidable (Along allowed s history)
  | _, [] => .isTrue trivial
  | s, event :: history =>
      @instDecidableAnd _ _ (decision s event) (decidable (s.after event) history)

end PeerWire.Session

import PeerWire.Mailbox
import PeerWire.Report
import PeerWire.Settings

/-!
Tearing a connection down, once. Every way a connection can end goes through
`Teardown.trigger`; only the first call acts. It first marks the connection as torn
down, which ends its tasks, then tells the scheduler if the connection had been
established, and last reports the exit. The marker for the scheduler is given up when
there is no room for it in time; the report is not.

A call is a small task of its own: `Teardown.advance` is one step of it, and
`Teardown.abandon` is what happens when its caller stops waiting for it.
-/

namespace PeerWire

/-- Where a call stands. -/
inductive CallPhase where
  /-- Waiting to put the marker into the deliveries. -/
  | marking (deadline : Nat)
  /-- Waiting to put the report into the exits. -/
  | reporting
  /-- Returned; `acted` tells whether it was the call that tore the connection down. -/
  | returned (acted : Bool)
  | abandoned
deriving DecidableEq, Repr, Inhabited

/-- A call to tear the connection down. -/
structure TeardownCall where
  reason : Ending
  phase : CallPhase
deriving DecidableEq, Repr, Inhabited

/-- The teardown of one connection, with the mailboxes it reports to. -/
structure Teardown where
  addr : String
  /-- Limit on handing the marker to the scheduler. -/
  handOff : Nat
  /-- The connection is torn down. -/
  hasFired : Bool := false
  /-- The scheduler may know about this connection. -/
  isEstablished : Bool := false
  exits : Mailbox ExitReport
  deliveries : Mailbox Delivery
  /-- All calls so far, oldest first. -/
  calls : List TeardownCall := []
deriving DecidableEq, Repr, Inhabited

namespace Teardown

/-- The connection is established from here on. -/
def markEstablished (t : Teardown) : Teardown :=
  { t with isEstablished := true }

/-- The number that the next call gets. -/
def nextCall (t : Teardown) : Nat := t.calls.length

/-- Starts a call. Only the first one acts; any other returns at once. -/
def trigger (t : Teardown) (reason : Ending) (now : Nat) : Teardown :=
  if t.hasFired then
    { t with calls := t.calls ++ [{ reason, phase := .returned false }] }
  else
    let phase := if t.isEstablished then .marking (Clock.timer now t.handOff) else .reporting
    { t with hasFired := true, calls := t.calls ++ [{ reason, phase }] }

/-- Puts a call into another phase. -/
def setPhase (t : Teardown) (number : Nat) (phase : CallPhase) : Teardown :=
  { t with calls := t.calls.modify number fun call => { call with phase } }

/-- Whether a call has ended, one way or the other. -/
def hasEnded (t : Teardown) (number : Nat) : Bool :=
  match t.calls[number]? with
  | some { phase := .returned _, .. } | some { phase := .abandoned, .. } => true
  | _ => false

/-- One step of a call, or nothing when it has to wait or has ended. -/
def advance (t : Teardown) (number : Nat) (now : Nat) : Option Teardown :=
  match t.calls[number]? with
  | some { phase := .marking deadline, .. } =>
      let (receipt, deliveries) := t.deliveries.send (.caller number) (.disconnected t.addr)
      match receipt with
      | .accepted | .closed => some ({ t with deliveries }.setPhase number .reporting)
      | .full =>
          if deadline ≤ now then
            some ({ t with deliveries := deliveries.leave (.caller number) }.setPhase
              number .reporting)
          else if .caller number ∈ t.deliveries.line then none
          else some { t with deliveries }
  | some { reason, phase := .reporting } =>
      let (receipt, exits) := t.exits.send (.caller number) { addr := t.addr, reason }
      match receipt with
      | .accepted | .closed => some ({ t with exits }.setPhase number (.returned true))
      | .full => if .caller number ∈ t.exits.line then none else some { t with exits }
  | _ => none

/-- The caller stops waiting for its call. -/
def abandon (t : Teardown) (number : Nat) : Teardown :=
  if t.hasEnded number then t
  else
    { t with
      exits := t.exits.leave (.caller number)
      deliveries := t.deliveries.leave (.caller number) }.setPhase number .abandoned

/-- The moment at which a waiting call goes on whatever happens. -/
def deadline? (t : Teardown) (number : Nat) : Option Nat :=
  match t.calls[number]? with
  | some { phase := .marking deadline, .. } => some deadline
  | _ => none

/-- Lets a call run until it has to wait: it takes a step to wait in line, and one to
leave each of its two phases. -/
def settleCall (t : Teardown) (number : Nat) (now : Nat) : Teardown :=
  go 4 t
where
  /-- At most `steps` steps. -/
  go : Nat → Teardown → Teardown
    | 0, t => t
    | steps + 1, t =>
        match t.advance number now with
        | none => t
        | some t => go steps t

/-- Lets every call run until it has to wait. -/
def settle (t : Teardown) (now : Nat) : Teardown :=
  (List.range t.calls.length).foldl (fun t number => t.settleCall number now) t

end Teardown

end PeerWire

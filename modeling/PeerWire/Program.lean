import PeerWire.Address
import PeerWire.Client
import PeerWire.CommandLine.Options

/-!
The program from its command line to its exit code: arguments are read, our identity is
settled, and a client runs until its connection reports its end.
-/

namespace PeerWire

/-- How the program ends. -/
structure Outcome where
  code : Nat
  /-- Why the connection ended, when there was one. -/
  exited : Option Ending := none
  /-- Why there was none, other than by the command line. -/
  failure : Option String := none
deriving DecidableEq, Repr

/-- How the program begins. -/
inductive Launch where
  /-- It is over before anything is dialed. -/
  | over (outcome : Outcome)
  /-- The client runs. -/
  | running (arguments : Arguments) (client : Client)

namespace Launch

/-- What a dial comes to when its target cannot be resolved. -/
def unresolved (peer text : String) : Dial :=
  .failed s!"failed to resolve {peer}: {text}"

/-- The state of a dial to `peer`, given what a dial to a resolvable target comes to. -/
def dialTo (peer : String) (resolvable : Dial) : Dial :=
  match Destination.ofText peer with
  | .malformed text => unresolved peer text
  | .endpoint _ | .named _ _ => resolvable

/-- Starts the program. -/
def ofCommandLine (line : List String) (madeUp : PeerId) (resolvable : Dial) : Launch :=
  match CommandLine.read line with
  | .error halt => .over { code := halt.exitCode }
  | .ok arguments =>
      match arguments.identity madeUp with
      | .error fault => .over { code := 1, failure := some fault.message }
      | .ok identity =>
          .running arguments (.start arguments identity (dialTo arguments.peer resolvable))

end Launch

/-- The outcome of a client whose connection has ended. A connection that crashed has
nothing to report. -/
def Client.outcome (c : Client) : Outcome where
  code := 0
  exited := c.exit?.map ExitReport.reason

/-- The outcome when nothing happens outside but the dial and the passing of time. -/
def Launch.outcome : Launch → Outcome
  | .over outcome => outcome
  | .running arguments client =>
      let client := client.settle
      match arguments.duration with
      | some duration =>
          if client.session.isClosed then client.outcome
          else (client.advanceTo (Arguments.seconds duration)).shutdown.outcome
      | none => client.outcome

end PeerWire

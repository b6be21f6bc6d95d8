import PeerWire.Program
import Std.Async.DNS
import Std.Async.TCP
import Std.Async.Timer
import Std.Sync.Channel

/-!
The program on a real network. It moves bytes between a socket and a client, tells the
client how much time has passed, and prints how the connection ended.

Whatever takes time runs in the background and reports what came of it as a change of
the connection's surroundings. Writes that the client has made are sent in one go; until
that is done no further write can complete.
-/

namespace PeerWire.Main

open Std.Async

/-- What a background activity reports. -/
inductive Report where
  | connected (socket : TCP.Socket.Client)
  | change (change : Session → Session)

instance : Inhabited Report := ⟨.change id⟩

/-- The client with its socket. -/
structure Running where
  client : Client
  socket : Option TCP.Socket.Client := none
  hasDialed : Bool := false
  /-- How many of the client's bytes were sent. -/
  sent : Nat := 0

/-- The address of an endpoint as the network wants it. -/
def socketAddress (endpoint : Endpoint) : Except IO.Error Std.Net.SocketAddress :=
  match endpoint.address with
  | .v4 a b c d => .ok (.v4 ⟨.ofParts a b c d, endpoint.port⟩)
  | .v6 [a, b, c, d, e, f, g, h] => .ok (.v6 ⟨.ofParts a b c d e f g h, endpoint.port⟩)
  | .v6 _ => .error (.userError "invalid socket address")

/-- Finds out where a peer is. -/
def resolve (peer : String) : Async Std.Net.SocketAddress := do
  match Destination.ofText peer with
  | .malformed text => throw (.userError text)
  | .endpoint endpoint => ofExcept (socketAddress endpoint)
  | .named host port =>
      match (← DNS.getAddrInfo host (toString port.toNat)).toList with
      | .v4 addr :: _ => return .v4 ⟨addr, port⟩
      | .v6 addr :: _ => return .v6 ⟨addr, port⟩
      | [] => throw (.userError ("no address found for " ++ peer))

/-- Dials a peer. -/
def dial (reports : Std.Channel Report) (peer : String) : Async Unit := do
  try
    let target ← resolve peer
    let socket ← TCP.Socket.Client.mk
    socket.connect target
    socket.noDelay
    discard <| reports.send (.connected socket)
  catch error =>
    discard <| reports.send (.change (·.dialReturns (.failed (toString error))))

/-- Reports what arrives on a socket, until nothing more can. -/
partial def listen (reports : Std.Channel Report) (socket : TCP.Socket.Client) : Async Unit := do
  try
    match ← socket.recv? 65536 with
    | some bytes =>
        discard <| reports.send (.change fun s => (s.remoteSendsBytes bytes.toList).2)
        listen reports socket
    | none => discard <| reports.send (.change Session.remoteEnds)
  catch error =>
    let failure : Failure := .transport .unspecified (toString error)
    discard <| reports.send (.change fun s => (s.remoteSends (.error failure)).2)

/-- Sends bytes, after which the next write can complete. -/
def send (reports : Std.Channel Report) (socket : TCP.Socket.Client) (bytes : List UInt8) :
    Async Unit := do
  try
    socket.send ⟨bytes.toArray⟩
    discard <| reports.send (.change (·.openGate true))
  catch error =>
    let text := toString error
    discard <| reports.send (.change fun s => (s.failWrites text).openGate true)

/-- Starts what the client asks for: the dial, and sending what it has written. -/
def perform (reports : Std.Channel Report) (r : Running) : Async Running := do
  let session := r.client.session
  let mut r := r
  if session.transport.dials > 0 && session.transport.dial = .pending && !r.hasDialed then
    background (dial reports session.teardown.addr)
    r := { r with hasDialed := true }
  let bytes := (session.transport.bytesSent session.identity).drop r.sent
  if let some socket := r.socket then
    if !bytes.isEmpty then
      background (send reports socket bytes)
      r := { r with
        client := r.client.act (·.openGate false)
        sent := r.sent + bytes.length }
  return r

/-- The time until the client has to be looked at although nothing is reported. -/
def nextLook (client : Client) (endAt : Option Nat) : Nat :=
  let moments := (Schedule.nextDeadline? client.session).toList ++ endAt.toList
  min (moments.min?.getD (client.session.now + 60000) - client.session.now) 60000

/-- Runs the client until its connection has ended; `endAt` is when the owner ends it. -/
partial def serve (reports : Std.Channel Report) (startedAt : Nat) (endAt : Option Nat)
    (r : Running) : Async Client := do
  let r ← perform reports { r with client := r.client.settle }
  if r.client.session.isClosed then
    if let some socket := r.socket then
      try socket.shutdown catch _ => pure ()
    return r.client
  let pause := Std.Time.Millisecond.Offset.ofNat (nextLook r.client endAt)
  let report ← Selectable.one #[
    .case reports.recvSelector fun report => pure (some report),
    .case (← Selector.sleep pause) fun _ => pure none]
  let now := (← IO.monoMsNow) - startedAt
  let client := r.client.advanceTo now
  let (client, endAt) :=
    if endAt.any (· ≤ now) then (client.shutdown, none) else (client, endAt)
  match report with
  | none => serve reports startedAt endAt { r with client }
  | some (.change change) =>
      serve reports startedAt endAt { r with client := client.act change }
  | some (.connected socket) =>
      background (listen reports socket)
      serve reports startedAt endAt
        { r with client := client.act (·.dialReturns .connected), socket }

/-- Makes up an id. -/
def makeUpId : IO PeerId := do
  let digits ← (List.range 12).mapM fun _ => IO.rand 0 9
  return PeerId.madeUp fun place => digits.getD place 0

/-- What is printed when the command line is not one that can be acted on. -/
def usage : String :=
  "Usage: peer-wire --peer <HOST:PORT> --info-hash <HEX> --pieces <COUNT> [OPTIONS]\n\n" ++
    "Options:\n" ++
    "\n".intercalate (CommandLine.Switch.all.map fun option =>
      "  --" ++ option.name ++ if option.takesValue then " <VALUE>" else "")

/-- Prints how the program ended. -/
def conclude (outcome : Outcome) : IO UInt32 := do
  if let some reason := outcome.exited then
    IO.eprintln ("exited: " ++ reason.toString)
  if let some failure := outcome.failure then
    IO.eprintln ("Error: " ++ failure)
  return UInt32.ofNat outcome.code

/-- Runs the program with the given command line. -/
def run (line : List String) : IO UInt32 := do
  match CommandLine.read line with
  | .error .version => IO.println "peer-wire 0.1.0"
  | .error .help => IO.println usage
  | .error _ => IO.eprintln usage
  | .ok _ => pure ()
  match Launch.ofCommandLine line (← makeUpId) .pending with
  | .over outcome => conclude outcome
  | .running arguments client =>
      let reports ← Std.Channel.new
      let endAt := arguments.duration.map Arguments.seconds
      let client ← (serve reports (← IO.monoMsNow) endAt { client }).block
      conclude client.outcome

end PeerWire.Main

/-- The program. -/
def main (line : List String) : IO UInt32 :=
  PeerWire.Main.run line

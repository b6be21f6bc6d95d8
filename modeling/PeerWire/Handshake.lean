import PeerWire.Bytes
import PeerWire.Failure
import PeerWire.Text

/-!
The opening of a connection: each side sends 68 bytes, namely the length and text of
the protocol's name, eight reserved bytes, the info hash of the swarm and its own
peer id. The reserved bytes are carried along and never looked at.

`Handshake.receive` is the receiving half of the exchange over whatever the remote
has sent so far: it takes exactly one handshake off the front and leaves the rest of
the stream untouched for the framed messages that follow.
-/

namespace PeerWire

/-- Identifies a connection's remote, or ourselves. -/
abbrev PeerId := Octets 20

/-- Identifies a swarm. -/
abbrev InfoHash := Octets 20

/-- Who we are: the swarm, and our id in it. -/
structure Identity where
  infoHash : InfoHash
  peerId : PeerId
deriving DecidableEq, Repr, Inhabited

/-- The opening message of one side. -/
structure Handshake where
  reserved : Octets 8
  infoHash : InfoHash
  peerId : PeerId
deriving DecidableEq, Repr, Inhabited

namespace Handshake

/-- The bytes of a handshake. -/
def size : Nat := 68

/-- The protocol's name, `BitTorrent protocol`. -/
def protocolName : List UInt8 :=
  [66, 105, 116, 84, 111, 114, 114, 101, 110, 116, 32,
    112, 114, 111, 116, 111, 99, 111, 108]

/-- The handshake with which we open: no reserved bit set. -/
def ours (identity : Identity) : Handshake where
  reserved := Octets.fill 8 0
  infoHash := identity.infoHash
  peerId := identity.peerId

/-- The wire form. -/
def encode (h : Handshake) : List UInt8 :=
  UInt8.ofNat protocolName.length :: protocolName ++ h.reserved.bytes ++ h.infoHash.bytes ++
    h.peerId.bytes

/-- The bytes before the reserved ones are the name's length and the name. -/
def opensWithName (bytes : List UInt8) : Bool :=
  bytes.take 20 == UInt8.ofNat protocolName.length :: protocolName

/-- Reads a wire form. The size is checked before the name. -/
def decode (bytes : List UInt8) : Except PeerFault Handshake :=
  if bytes.length ≠ size then
    .error (.handshake s!"expected {size} bytes, got {bytes.length}")
  else if opensWithName bytes then
    match Octets.ofList? 8 ((bytes.drop 20).take 8), Octets.ofList? 20 ((bytes.drop 28).take 20),
        Octets.ofList? 20 (bytes.drop 48) with
    | some reserved, some infoHash, some peerId => .ok { reserved, infoHash, peerId }
    | _, _, _ => .error (.handshake s!"expected {size} bytes, got {bytes.length}")
  else
    .error (.handshake "unsupported protocol string")

/-- Info hash and peer id in hexadecimal, on one line. -/
def summary (h : Handshake) : String :=
  "Handshake \x7b info_hash: \"" ++ Hex.encode h.infoHash.bytes ++ "\", peer_id: \"" ++
    Hex.encode h.peerId.bytes ++ "\" \x7d"

/-- The state of an exchange whose own handshake has been sent. -/
inductive Reply where
  /-- The remote's handshake is not complete. -/
  | waiting
  /-- The remote is in our swarm; `rest` is what it sent after its handshake. -/
  | accepted (peerId : PeerId) (rest : List UInt8)
  | refused (failure : Failure) (rest : List UInt8)
deriving DecidableEq, Repr

/-- Looks at what the remote has sent, and whether it has ended its side. -/
def receive (infoHash : InfoHash) (received : List UInt8) (ended : Bool) : Reply :=
  if received.length < size then
    if ended then .refused .earlyEnd [] else .waiting
  else
    let rest := received.drop size
    match decode (received.take size) with
    | .error fault => .refused (.peer fault) rest
    | .ok theirs =>
        if theirs.infoHash = infoHash then .accepted theirs.peerId rest
        else .refused (.peer .foreignSwarm) rest

end Handshake

end PeerWire

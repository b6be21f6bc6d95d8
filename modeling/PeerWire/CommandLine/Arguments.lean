import PeerWire.Bitfield
import PeerWire.Handshake
import PeerWire.Settings
import PeerWire.Text

/-!
What the command line asks for, and what follows from it: who we are, with which
settings we connect and what we hold at first. Times are given in seconds.
-/

namespace PeerWire

/-- What the command line asks for. -/
structure Arguments where
  /-- The remote, as `host:port`. -/
  peer : String
  /-- The swarm, in hexadecimal. -/
  infoHash : String
  /-- The number of pieces in the swarm. -/
  pieces : UInt64
  /-- Our id; one is made up when none is given. -/
  peerId : Option String
  /-- Announce every piece as held. -/
  seed : Bool
  /-- The length asked for in every request. -/
  blockSize : UInt32
  connectTimeout : UInt64
  ioTimeout : UInt64
  readTimeout : Option UInt64
  keepAlive : UInt64
  /-- How long to stay connected, if not for as long as it lasts. -/
  duration : Option UInt64
deriving DecidableEq, Repr, Inhabited

/-- Why the arguments do not say who we are. -/
inductive IdentityFault where
  | notHexadecimal (text : String) (fault : Hex.Fault)
  | infoHashLength (actual : Nat)
  | peerIdLength (actual : Nat)
deriving DecidableEq, Repr

/-- The text of a fault in a hexadecimal text. -/
def Hex.Fault.message : Hex.Fault → String
  | .oddLength => "Odd number of digits"
  | .badCharacter byte position =>
      s!"Invalid character {Quoted.ofByte byte} at position {position}"

/-- The text of an identity fault. -/
def IdentityFault.message : IdentityFault → String
  | .notHexadecimal text fault => s!"invalid info hash {text}: {fault.message}"
  | .infoHashLength actual => s!"info hash must be 20 bytes, got {actual}"
  | .peerIdLength actual => s!"peer id must be 20 bytes, got {actual}"

namespace PeerId

/-- What every id that we make up starts with. -/
def madeUpStart : List UInt8 := "-SP0100-".toUTF8.toList

/-- A made-up id: twelve digits, chosen by the given numbers, follow a fixed start. -/
def madeUp (choice : Nat → Nat) : PeerId :=
  let digits := (List.range 12).map fun place => UInt8.ofNat (48 + choice place % 10)
  (Octets.ofList? 20 (madeUpStart ++ digits)).getD default

end PeerId

namespace Arguments

/-- The swarm that the arguments name. -/
def swarm (a : Arguments) : Except IdentityFault InfoHash :=
  match Hex.decode a.infoHash.toUTF8.toList with
  | .error fault => .error (.notHexadecimal a.infoHash fault)
  | .ok bytes =>
      match Octets.ofList? 20 bytes with
      | some infoHash => .ok infoHash
      | none => .error (.infoHashLength bytes.length)

/-- Our id: the bytes of the given text, or else the one made up. -/
def ownId (a : Arguments) (madeUp : PeerId) : Except IdentityFault PeerId :=
  match a.peerId with
  | none => .ok madeUp
  | some text =>
      let bytes := text.toUTF8.toList
      match Octets.ofList? 20 bytes with
      | some peerId => .ok peerId
      | none => .error (.peerIdLength bytes.length)

/-- Who we are. The swarm is looked at first. -/
def identity (a : Arguments) (madeUp : PeerId) : Except IdentityFault Identity := do
  let infoHash ← a.swarm
  let peerId ← a.ownId madeUp
  return { infoHash, peerId }

/-- Seconds in milliseconds. -/
def seconds (count : UInt64) : Nat := count.toNat * 1000

/-- The settings of the connection. -/
def settings (a : Arguments) : Settings :=
  { Settings.default with
    connectTimeout := seconds a.connectTimeout
    ioTimeout := seconds a.ioTimeout
    readTimeout := a.readTimeout.map seconds
    keepAlive := seconds a.keepAlive }

/-- What we hold at first: everything or nothing. -/
def field (a : Arguments) : Bitfield :=
  if a.seed then .full a.pieces else .empty a.pieces

end Arguments

end PeerWire

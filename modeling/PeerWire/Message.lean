import PeerWire.Bytes

/-!
The messages of the peer wire protocol. A message that arrives with an id outside
the protocol is kept as `unknown`, so that rejecting it is a decision of whoever
handles messages and not of whoever reads them.
-/

namespace PeerWire

/-- A part of a piece, by place and size. -/
structure BlockRef where
  piece : UInt32
  offset : UInt32
  length : UInt32
deriving DecidableEq, Repr, Inhabited

/-- A part of a piece, with its data. -/
structure Block where
  piece : UInt32
  offset : UInt32
  data : List UInt8
deriving DecidableEq, Repr, Inhabited

/-- Whether the reference names this block: same place and same size. -/
def Block.isNamedBy (block : Block) (ref : BlockRef) : Bool :=
  block.piece == ref.piece && block.offset == ref.offset &&
    block.data.length == ref.length.toNat

/-- One message of the protocol. -/
inductive Message where
  | keepAlive
  | choke
  | unchoke
  | interested
  | notInterested
  | havePiece (index : UInt32)
  | bitfield (bits : List UInt8)
  | request (ref : BlockRef)
  | piece (block : Block)
  | cancel (ref : BlockRef)
  | port (number : UInt16)
  | unknown (id : UInt8) (payload : List UInt8)
deriving DecidableEq, Repr, Inhabited

/-! ### Ids on the wire -/

namespace MessageId

def choke : UInt8 := 0
def unchoke : UInt8 := 1
def interested : UInt8 := 2
def notInterested : UInt8 := 3
def havePiece : UInt8 := 4
def bitfield : UInt8 := 5
def request : UInt8 := 6
def piece : UInt8 := 7
def cancel : UInt8 := 8
def port : UInt8 := 9

end MessageId

/-! ### One-line summaries

Bulk data is shown by its size; the payload of an unknown message is listed. -/

/-- A record in a summary: its name, then its fields in order. -/
def summaryRecord (name : String) (fields : List (String × String)) : String :=
  let listed := fields.map fun (label, value) => label ++ ": " ++ value
  name ++ " \x7b " ++ ", ".intercalate listed ++ " \x7d"

namespace Message

/-- A message kind around the name of its record. -/
private def summaryKind (kind record : String) : String :=
  kind ++ "(" ++ record ++ ")"

private def summaryRef (kind : String) (ref : BlockRef) : String :=
  summaryKind kind (summaryRecord (kind ++ "Message")
    [("piece_index", toString ref.piece.toNat), ("begin", toString ref.offset.toNat),
      ("length", toString ref.length.toNat)])

/-- The message on one line, as it appears in a log. -/
def summary : Message → String
  | .keepAlive => "KeepAlive"
  | .choke => summaryKind "Choke" "ChokeMessage"
  | .unchoke => summaryKind "Unchoke" "UnchokeMessage"
  | .interested => summaryKind "Interested" "InterestedMessage"
  | .notInterested => summaryKind "NotInterested" "NotInterestedMessage"
  | .havePiece index => summaryKind "Have"
      (summaryRecord "HaveMessage" [("piece_index", toString index.toNat)])
  | .bitfield bits => summaryKind "Bitfield"
      (summaryRecord "BitfieldMessage" [("bytes", toString bits.length)])
  | .request ref => summaryRef "Request" ref
  | .piece block => summaryKind "Piece" (summaryRecord "PieceMessage"
      [("piece_index", toString block.piece.toNat), ("begin", toString block.offset.toNat),
        ("length", toString block.data.length)])
  | .cancel ref => summaryRef "Cancel" ref
  | .port number => summaryKind "Port"
      (summaryRecord "PortMessage" [("port", toString number.toNat)])
  | .unknown id payload =>
      let listed := ", ".intercalate (payload.map fun byte => toString byte.toNat)
      summaryKind "Unknown" (summaryRecord "UnknownMessage"
        [("id", toString id.toNat), ("payload", "[" ++ listed ++ "]")])

end Message

end PeerWire

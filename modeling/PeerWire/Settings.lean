/-!
Time, and the settings of a connection with their defaults. Times are in milliseconds.

The clock counts seconds in signed 64-bit words, so there is a last moment; a wait that
would end after it has no end on this clock. Timers replace such an end by one that lies
thirty years ahead, but plain addition of a wait to a moment has no result there.
-/

namespace PeerWire

/-! ### The clock -/

namespace Clock

/-- The last millisecond that the clock can name. -/
def last : Nat := ((1 <<< 63) - 1) * 1000 + 999

/-- How far ahead a timer is set whose own end the clock cannot name. -/
def farAhead : Nat := 30 * 365 * 86400 * 1000

/-- The moment at which a wait ends, if the clock can name it. -/
def after? (now wait : Nat) : Option Nat :=
  if now + wait ≤ last then some (now + wait) else none

/-- The moment at which a timer for a wait goes off. -/
def timer (now wait : Nat) : Nat :=
  (after? now wait).getD (now + farAhead)

end Clock

/-! ### Settings -/

/-- The settings of a connection. -/
structure Settings where
  /-- Limit on resolving and dialing. -/
  connectTimeout : Nat
  /-- Limit on the handshake and on every write. -/
  ioTimeout : Nat
  /-- Limit on a single read; without one a read may wait forever. -/
  readTimeout : Option Nat
  /-- How long nothing is written before a keep-alive is. -/
  keepAlive : Nat
  /-- Limit on handing something to the scheduler. -/
  handOff : Nat
  /-- Room for messages on their way to the write queue. -/
  outboundCapacity : Nat
  /-- The longest frame that is read. -/
  frameLimit : Nat
deriving DecidableEq, Repr, Inhabited

namespace Settings

/-- Room for cancellations on their way to the write queue. -/
def cancelCapacity : Nat := 16

/-- Room between the write queue and the writer. One place only, so that whatever is
not yet handed over can still be retracted. -/
def slotCapacity : Nat := 1

/-- A mebibyte of data and the header of a block. -/
def defaultFrameLimit : Nat := (1 <<< 20) + 13

/-- The default settings. -/
def default : Settings where
  connectTimeout := 10000
  ioTimeout := 30000
  readTimeout := none
  keepAlive := 120000
  handOff := 5000
  outboundCapacity := 32
  frameLimit := defaultFrameLimit

end Settings

end PeerWire

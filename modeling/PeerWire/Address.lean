import PeerWire.Text

/-!
Network addresses as text. An address is four bytes or eight 16-bit groups; an
endpoint is an address and a port, where the longer form stands in brackets.

Reading is strict: a decimal byte has no leading zero, a group has one to four
hexadecimal digits, `::` stands once for at least one group, and the last two groups
may be written as four decimal bytes. Writing is canonical: the leftmost longest run
of two or more zero groups becomes `::`, digits are lower case, and an address that
embeds a four-byte one shows it in decimal.
-/

namespace PeerWire

/-- A network address. -/
inductive Address where
  | v4 (a b c d : UInt8)
  | v6 (groups : List UInt16)
deriving DecidableEq, Repr, Inhabited

/-- An address and a port. -/
structure Endpoint where
  address : Address
  port : UInt16
deriving DecidableEq, Repr, Inhabited

namespace Address

/-! ### Reading -/

/-- The value of a digit in the given base, at most sixteen. -/
def digitValue? (base : Nat) (c : Char) : Option Nat :=
  let value? :=
    if '0' ≤ c ∧ c ≤ '9' then some (c.toNat - 48)
    else if 'a' ≤ c ∧ c ≤ 'f' then some (c.toNat - 87)
    else if 'A' ≤ c ∧ c ≤ 'F' then some (c.toNat - 55)
    else none
  value?.filter (· < base)

/-- Takes one to `most` digits off the front, and their value. -/
def takeNumber (base most : Nat) (text : List Char) : Option (Nat × List Char) :=
  let digits := text.takeWhile fun c => (digitValue? base c).isSome
  if digits.isEmpty || digits.length > most then none
  else
    some (digits.foldl (fun total c => total * base + (digitValue? base c).getD 0) 0,
      text.drop digits.length)

/-- Takes a decimal byte off the front; only zero itself starts with a zero. -/
def takeByte (text : List Char) : Option (UInt8 × List Char) := do
  let (value, rest) ← takeNumber 10 3 text
  let written := text.length - rest.length
  if value > 255 ∨ (written > 1 ∧ text.head? = some '0') then none
  else some (UInt8.ofNat value, rest)

/-- Takes the given character off the front. -/
def takeChar (expected : Char) : List Char → Option (List Char)
  | c :: rest => if c = expected then some rest else none
  | [] => none

/-- Takes four decimal bytes, separated by dots, off the front. -/
def takeV4 (text : List Char) : Option ((UInt8 × UInt8 × UInt8 × UInt8) × List Char) := do
  let (a, text) ← takeByte text
  let (b, text) ← takeByte (← takeChar '.' text)
  let (c, text) ← takeByte (← takeChar '.' text)
  let (d, text) ← takeByte (← takeChar '.' text)
  return ((a, b, c, d), text)

/-- A 16-bit group made of two bytes. -/
def groupOf (high low : UInt8) : UInt16 :=
  (high.toUInt16 <<< 8) ||| low.toUInt16

/-- Takes up to `most` groups, separated by colons, off the front; `first` says that
no separator comes before the next one. Four decimal bytes count as two groups and
end the list. -/
def takeGroups (first : Bool) : Nat → List Char → List UInt16 × List Char
  | 0, text => ([], text)
  | most + 1, text =>
      match if first then some text else takeChar ':' text with
      | none => ([], text)
      | some start =>
          match if most > 0 then takeV4 start else none with
          | some ((a, b, c, d), rest) => ([groupOf a b, groupOf c d], rest)
          | none =>
              match takeNumber 16 4 start with
              | none => ([], text)
              | some (value, rest) =>
                  let (groups, rest) := takeGroups false most rest
                  (UInt16.ofNat value :: groups, rest)

/-- Whether the list of groups that starts `text` and leaves `rest` ended in decimal
bytes, after which no `::` may follow. -/
def endsInBytes (text rest : List Char) : Bool :=
  (text.take (text.length - rest.length)).contains '.'

/-- Takes eight groups off the front, one run of zeros possibly written `::`. -/
def takeV6 (text : List Char) : Option (List UInt16 × List Char) := do
  let (front, rest) := takeGroups true 8 text
  if front.length = 8 then return (front, rest)
  if endsInBytes text rest then none
  let rest ← takeChar ':' (← takeChar ':' rest)
  let (back, rest) := takeGroups true (7 - front.length) rest
  return (front ++ List.replicate (8 - front.length - back.length) 0 ++ back, rest)

/-- The address that the whole text denotes. -/
def parse? (text : String) : Option Address :=
  let chars := text.toList
  match takeV4 chars with
  | some ((a, b, c, d), []) => some (.v4 a b c d)
  | _ =>
      match takeV6 chars with
      | some (groups, []) => some (.v6 groups)
      | _ => none

/-! ### Writing -/

/-- Four decimal bytes. -/
def showBytes (a b c d : UInt8) : String :=
  s!"{a.toNat}.{b.toNat}.{c.toNat}.{d.toNat}"

/-- Groups between colons. -/
def showGroups (groups : List UInt16) : String :=
  ":".intercalate (groups.map fun group => String.ofList (Nat.toDigits 16 group.toNat))

/-- The length of the run of zero groups at the front. -/
def zeroRun (groups : List UInt16) : Nat :=
  (groups.takeWhile (· == 0)).length

/-- Start and length of the leftmost longest run of zero groups; `start` is where the
given groups begin. -/
def longestZeroRun (start : Nat) : List UInt16 → Nat × Nat
  | [] => (start, 0)
  | group :: rest =>
      let here := zeroRun (group :: rest)
      let later := longestZeroRun (start + 1) rest
      if here ≥ later.2 then (start, here) else later

/-- The canonical text. -/
protected def toString : Address → String
  | .v4 a b c d => showBytes a b c d
  | .v6 [0, 0, 0, 0, 0, 0xffff, high, low] =>
      "::ffff:" ++ showBytes (high >>> 8).toUInt8 high.toUInt8 (low >>> 8).toUInt8 low.toUInt8
  | .v6 groups =>
      let (start, length) := longestZeroRun 0 groups
      if length > 1 then
        showGroups (groups.take start) ++ "::" ++ showGroups (groups.drop (start + length))
      else showGroups groups

end Address

namespace Endpoint

/-- The canonical text: eight groups stand in brackets. -/
protected def toString (endpoint : Endpoint) : String :=
  match endpoint.address with
  | .v4 .. => s!"{endpoint.address.toString}:{endpoint.port.toNat}"
  | .v6 _ => s!"[{endpoint.address.toString}]:{endpoint.port.toNat}"

/-- The port that the whole text denotes, digits only. -/
def takePort? (text : List Char) : Option UInt16 := do
  let (value, rest) ← Address.takeNumber 10 text.length (← Address.takeChar ':' text)
  if rest.isEmpty ∧ value < 65536 then some (UInt16.ofNat value) else none

/-- The endpoint that the whole text denotes. -/
def parse? (text : String) : Option Endpoint :=
  let chars := text.toList
  let short := do
    let ((a, b, c, d), rest) ← Address.takeV4 chars
    let port ← takePort? rest
    return { address := .v4 a b c d, port : Endpoint }
  let long := do
    let (groups, rest) ← Address.takeV6 (← Address.takeChar '[' chars)
    let port ← takePort? (← Address.takeChar ']' rest)
    return { address := .v6 groups, port : Endpoint }
  short <|> long

end Endpoint

/-! ### Resolution

What a peer's `host:port` text asks for, before any name is looked up. -/

/-- What has to happen before a text can be dialed. -/
inductive Destination where
  | endpoint (target : Endpoint)
  | named (host : String) (port : UInt16)
  | malformed (text : String)
deriving DecidableEq, Repr

namespace Destination

/-- A decimal number below 2^16, possibly after a plus sign. -/
def port? (text : List Char) : Option UInt16 :=
  ((Decimal.natural? text).filter (· < 65536)).map UInt16.ofNat

/-- A text without a colon is no socket address; otherwise what follows the last
colon has to be a port. -/
def ofText (text : String) : Destination :=
  match Endpoint.parse? text with
  | some found => .endpoint found
  | none =>
      let reversed := text.toList.reverse
      let last := reversed.takeWhile (· ≠ ':')
      match reversed.drop last.length with
      | [] => .malformed "invalid socket address"
      | _ :: host =>
          match port? last.reverse with
          | none => .malformed "invalid port value"
          | some port => .named (String.ofList host.reverse) port

end Destination

end PeerWire

/-!
Numbers and bytes as text.

Hexadecimal text has two digits for each byte. Writing uses lower case digits; reading
accepts both cases and names the first thing that is wrong, an odd number of digits
before any character.

Decimal numbers stand on a command line and after a host name. Digits are the ten ASCII
ones, leading zeros are allowed, and a sign may come first: a plus sign always, a minus
sign where negative numbers are.

A message that points at a character shows it between quotes. Characters that have no
visible form are written as escapes; only the first 256 code points occur here, because
the character shown is always one byte.
-/

namespace PeerWire

/-! ### Hexadecimal text -/

namespace Hex

/-- The lower case digit of a number below sixteen. -/
def digit (value : UInt8) : Char :=
  if value < 10 then Char.ofNat (48 + value.toNat) else Char.ofNat (87 + value.toNat)

/-- Two digits for each byte, the high half first. -/
def encodeChars : List UInt8 → List Char
  | [] => []
  | byte :: rest => digit (byte >>> 4) :: digit (byte &&& 15) :: encodeChars rest

/-- The hexadecimal text of a byte string. -/
def encode (bytes : List UInt8) : String :=
  String.ofList (encodeChars bytes)

/-- Why a text is not hexadecimal. -/
inductive Fault where
  | oddLength
  | badCharacter (byte : UInt8) (position : Nat)
deriving DecidableEq, Repr

/-- The value of one digit, given as its ASCII code. -/
def value? (code : UInt8) : Option UInt8 :=
  if 48 ≤ code ∧ code ≤ 57 then some (code - 48)
  else if 65 ≤ code ∧ code ≤ 70 then some (code - 55)
  else if 97 ≤ code ∧ code ≤ 102 then some (code - 87)
  else none

/-- Reads digit pairs; `position` is where the text given here starts. -/
def decodePairs (position : Nat) : List UInt8 → Except Fault (List UInt8)
  | high :: low :: rest =>
      match value? high with
      | none => .error (.badCharacter high position)
      | some upper =>
          match value? low with
          | none => .error (.badCharacter low (position + 1))
          | some lower => (decodePairs (position + 2) rest).map ((upper <<< 4 ||| lower) :: ·)
  | _ => .ok []

/-- The byte string that a text, given by its UTF-8 bytes, denotes. -/
def decode (text : List UInt8) : Except Fault (List UInt8) :=
  if text.length % 2 = 1 then .error .oddLength else decodePairs 0 text

end Hex

/-! ### Decimal numbers -/

namespace Decimal

/-- The value of a digit. -/
def digit? (c : Char) : Option Nat :=
  if '0' ≤ c ∧ c ≤ '9' then some (c.toNat - 48) else none

/-- The number that a text denotes which is nothing but digits, at least one. -/
def digits? (text : List Char) : Option Nat :=
  if text.isEmpty then none
  else text.foldlM (fun total c => (digit? c).map (total * 10 + ·)) 0

/-- A number that is not negative, possibly after a plus sign. -/
def natural? : List Char → Option Nat
  | '+' :: text => digits? text
  | text => digits? text

/-- A number, possibly after a sign. -/
def integer? : List Char → Option Int
  | '-' :: text => (digits? text).map fun value => -(value : Int)
  | text => (natural? text).map Int.ofNat

end Decimal

/-! ### Quoted characters -/

namespace Quoted

/-- Code points below 256 without a visible form of their own: the two control
ranges, the no-break space and the soft hyphen. -/
def isHidden (code : Nat) : Bool :=
  code < 32 || (127 ≤ code && code ≤ 160) || code == 173

/-- Lower case hexadecimal digits of a code point, without leading zeros. -/
def codeDigits (code : Nat) : String :=
  String.ofList (Nat.toDigits 16 code)

/-- The byte as a character between single quotes, escaped where needed. -/
def ofByte (byte : UInt8) : String :=
  let quote := (Char.ofNat 39).toString
  let body :=
    match byte.toNat with
    | 0 => "\\0"
    | 9 => "\\t"
    | 10 => "\\n"
    | 13 => "\\r"
    | 39 => "\\" ++ quote
    | 92 => "\\\\"
    | code =>
        if isHidden code then "\\u\x7b" ++ codeDigits code ++ "\x7d"
        else (Char.ofNat code).toString
  quote ++ body ++ quote

end Quoted

end PeerWire

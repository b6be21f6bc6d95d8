import PeerWire.CommandLine.Arguments

/-!
Reading the command line. An option has a long name, written after two hyphens, and
perhaps a letter, written after one. Letters may be run together as long as none but
the last takes a value. A value is attached to its option, after an equals sign or
directly after the letter, or is the argument that follows.

Arguments are read from left to right, and the first fault ends the reading. A value
that is an argument of its own is looked at when the next option is met, and at the
end of the line; a fault found at an argument that nothing accepts goes before it.
-/

namespace PeerWire.CommandLine

/-- The options. -/
inductive Switch where
  | peer
  | infoHash
  | pieces
  | peerId
  | seed
  | blockSize
  | connectTimeout
  | ioTimeout
  | readTimeout
  | keepAlive
  | duration
  | help
  | version
deriving DecidableEq, Repr

/-- Why reading the command line ends without arguments. -/
inductive Halt where
  /-- The user asked for an explanation, or for the version. -/
  | help
  | version
  | unknownArgument
  /-- An option at the end, or before another one, lacks its value. -/
  | missingValue
  /-- A value that is not of the option's kind. -/
  | badValue
  /-- An option is given twice. -/
  | repeated
  /-- A value is attached to an option that takes none. -/
  | surplusValue
  /-- One of the options that have to be given is not. -/
  | missingOption
deriving DecidableEq, Repr

namespace Switch

/-- Every option. -/
def all : List Switch :=
  [.peer, .infoHash, .pieces, .peerId, .seed, .blockSize, .connectTimeout, .ioTimeout,
    .readTimeout, .keepAlive, .duration, .help, .version]

/-- The long name. -/
def name : Switch → String
  | .peer => "peer"
  | .infoHash => "info-hash"
  | .pieces => "pieces"
  | .peerId => "peer-id"
  | .seed => "seed"
  | .blockSize => "block-size"
  | .connectTimeout => "connect-timeout"
  | .ioTimeout => "io-timeout"
  | .readTimeout => "read-timeout"
  | .keepAlive => "keep-alive"
  | .duration => "duration"
  | .help => "help"
  | .version => "version"

/-- The letter, for the options that have one. -/
def letter? : Switch → Option Char
  | .peer => some 'p'
  | .infoHash => some 'i'
  | .pieces => some 'n'
  | .duration => some 'd'
  | .help => some 'h'
  | .version => some 'V'
  | _ => none

/-- Whether the option takes a value. -/
def takesValue : Switch → Bool
  | .seed | .help | .version => false
  | _ => true

/-- Whether the argument after the option is its value whatever it looks like. -/
def takesAnything : Switch → Bool
  | .peerId => true
  | _ => false

/-- The option with a long name. -/
def ofName? (name : List Char) : Option Switch :=
  all.find? fun switch => switch.name.toList = name

/-- The option with a letter. -/
def ofLetter? (letter : Char) : Option Switch :=
  all.find? fun switch => switch.letter? = some letter

end Switch

/-! ### Values -/

/-- A number below 2^64. -/
def word64? (text : String) : Option UInt64 :=
  ((Decimal.natural? text.toList).filter (· < UInt64.size)).map UInt64.ofNat

/-- A number below 2^32; a zero may be negative. -/
def word32? (text : String) : Option UInt32 :=
  match Decimal.integer? text.toList with
  | some value => if 0 ≤ value ∧ value < UInt32.size then some (UInt32.ofNat value.toNat) else none
  | none => none

/-- Whether a text is of the kind that the option wants. -/
def Switch.accepts (switch : Switch) (text : String) : Bool :=
  match switch with
  | .peer | .infoHash | .peerId => true
  | .blockSize => (word32? text).isSome
  | .pieces | .connectTimeout | .ioTimeout | .readTimeout | .keepAlive | .duration =>
      (word64? text).isSome
  | .seed | .help | .version => false

/-! ### Reading -/

/-- What has been read so far. -/
structure Reading where
  /-- The options that are complete, with their values. -/
  given : List (Switch × String) := []
  /-- The option that was read last, when its value is an argument of its own: the
  value, once that has come. -/
  pending : Option (Switch × Option String) := none
deriving DecidableEq, Repr

namespace Reading

/-- The value given to an option. -/
def value? (r : Reading) (switch : Switch) : Option String :=
  r.given.lookup switch

/-- Whether an option was given. -/
def has (r : Reading) (switch : Switch) : Bool :=
  (r.value? switch).isSome

/-- An option with its value is complete. -/
def complete (r : Reading) (switch : Switch) (value : String) : Except Halt Reading :=
  if r.has switch then .error .repeated
  else if switch.accepts value then .ok { r with given := (switch, value) :: r.given }
  else .error .badValue

/-- Looks at the value that was left for later. -/
def resolve (r : Reading) : Except Halt Reading :=
  match r.pending with
  | none => .ok r
  | some (_, none) => .error .missingValue
  | some (switch, some value) => { r with pending := none : Reading }.complete switch value

/-- An option that takes no value. -/
def flag (r : Reading) (switch : Switch) : Except Halt Reading := do
  let r ← r.resolve
  match switch with
  | .help => throw .help
  | .version => throw .version
  | switch =>
      if r.has switch then throw .repeated
      else return { r with given := (switch, "") :: r.given }

/-- An option with its value attached. -/
def attached (r : Reading) (switch : Switch) (value : String) : Except Halt Reading := do
  (← r.resolve).complete switch value

/-- An option whose value is to follow. -/
def detached (r : Reading) (switch : Switch) : Except Halt Reading := do
  return { ← r.resolve with pending := some (switch, none) }

/-- The option that waits for its value. -/
def waiting? (r : Reading) : Option Switch :=
  match r.pending with
  | some (switch, none) => some switch
  | _ => none

/-- An argument that is nothing but a value. -/
def value (r : Reading) (text : String) : Except Halt Reading :=
  match r.waiting? with
  | some switch => .ok { r with pending := some (switch, some text) }
  | none => .error .unknownArgument

/-- An argument after two hyphens: a long name, and what comes after the first equals
sign in it. -/
def long (r : Reading) (text : List Char) : Except Halt Reading :=
  let name := text.takeWhile (· ≠ '=')
  match Switch.ofName? name, text.drop name.length with
  | none, _ => .error .unknownArgument
  | some switch, [] => if switch.takesValue then r.detached switch else r.flag switch
  | some switch, _ :: value =>
      if switch.takesValue then r.attached switch (String.ofList value)
      else .error .surplusValue

/-- The letters after one hyphen. -/
def letters (r : Reading) : List Char → Except Halt Reading
  | [] => .ok r
  | letter :: rest =>
      match Switch.ofLetter? letter with
      | none => .error .unknownArgument
      | some switch =>
          if switch.takesValue then
            match rest with
            | [] => r.detached switch
            | '=' :: value => r.attached switch (String.ofList value)
            | value => r.attached switch (String.ofList value)
          else
            match r.flag switch with
            | .ok r => r.letters rest
            | .error halt => .error halt

/-- Any argument that is not the end of the options. -/
def argument (r : Reading) (text : String) : Except Halt Reading :=
  if r.waiting?.any Switch.takesAnything then r.value text
  else
    match text.toList with
    | '-' :: '-' :: long => r.long long
    | '-' :: letter :: rest => r.letters (letter :: rest)
    | _ => r.value text

/-- Reads the arguments. After the end of the options nothing is accepted any more. -/
def arguments (r : Reading) : List String → Except Halt Reading
  | [] => r.resolve
  | text :: rest =>
      if text = "--" ∧ !r.waiting?.any Switch.takesAnything then
        if rest.isEmpty then r.resolve else .error .unknownArgument
      else
        match r.argument text with
        | .ok r => r.arguments rest
        | .error halt => .error halt

/-- What was asked for, where everything that has to be given is. -/
def toArguments (r : Reading) : Except Halt Arguments :=
  match r.value? .peer, r.value? .infoHash, (r.value? .pieces).bind word64? with
  | some peer, some infoHash, some pieces =>
      let number (switch : Switch) := (r.value? switch).bind word64?
      .ok {
        peer
        infoHash
        pieces
        peerId := r.value? .peerId
        seed := r.has .seed
        blockSize := ((r.value? .blockSize).bind word32?).getD 16384
        connectTimeout := (number .connectTimeout).getD 10
        ioTimeout := (number .ioTimeout).getD 30
        readTimeout := number .readTimeout
        keepAlive := (number .keepAlive).getD 120
        duration := number .duration }
  | _, _, _ => .error .missingOption

end Reading

/-- Reads a command line, without the program's name. -/
def read (line : List String) : Except Halt Arguments := do
  (← ({} : Reading).arguments line).toArguments

/-- The exit code of the program when reading its command line halts. -/
def Halt.exitCode : Halt → Nat
  | .help | .version => 0
  | _ => 2

end PeerWire.CommandLine

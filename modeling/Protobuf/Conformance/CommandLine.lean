/-
**The command line of the testee.**

* `CommandLine.parse`: what the arguments ask for. They are read from left to right, and the first
  one that is wrong, or asks for the version or the help, decides;
* `CommandLine.run`: the exit code and the output of a run on a given input. With a payload among
  the arguments the output is its debug line; without one the input is served as a stream.
-/

import Protobuf.Conformance.Stream

namespace Protobuf.Conformance.CommandLine

/-- The name of the program. -/
def programName : String := "protowire-conformance"

/-- The version of the program. -/
def version : String := "0.1.0"

/-- What a run does. -/
structure Options where
  /-- Whether more is logged. -/
  verbose : Bool := false
  /-- The largest request that is admitted, if given. -/
  maxFrameSize : Option Nat := none
  /-- The message type a payload is parsed as, if given. -/
  messageType : Option String := none
  /-- The escaped payload, if given. -/
  payload : Option String := none
  deriving DecidableEq, Repr

/-- What the arguments ask for. -/
inductive Command where
  /-- To answer requests. -/
  | run (options : Options)
  /-- To show the version. -/
  | version
  /-- To show the help. -/
  | help
  /-- Nothing that is understood. -/
  | rejected
  deriving DecidableEq, Repr

/-- An option that takes a value. -/
inductive ValueOption where
  | maxFrameSize
  | messageType
  deriving DecidableEq, Repr

/-- How far the arguments are read. -/
structure State where
  /-- What is given so far. -/
  options : Options := {}
  /-- The option whose value comes next. -/
  pending : Option ValueOption := none
  /-- Whether every argument to come is a payload. -/
  payloadsOnly : Bool := false
  deriving DecidableEq, Repr

/-- A state, or the command that is decided before all arguments are read. -/
abbrev Progress := Except Command State

/-- The number some digits spell, with an optional plus sign before them. -/
def number? (text : String) : Option Nat :=
  let digits :=
    match text.toList with
    | '+' :: digits => digits
    | digits => digits
  if digits ≠ [] ∧ digits.all Char.isDigit then
    some (digits.foldl (fun value digit => value * 10 + (digit.toNat - 0x30)) 0)
  else none

/-- A frame size: a number of at least one that fits 64 bits. -/
def frameSize? (text : String) : Option Nat :=
  (number? text).filter fun size => 1 ≤ size ∧ size < UInt64.size

namespace State

/-- Gives the value of an option, which must not have one yet. -/
def setValue (state : State) (option : ValueOption) (value : String) : Progress :=
  let options := state.options
  match option with
  | .maxFrameSize =>
    match options.maxFrameSize, frameSize? value with
    | none, some size =>
      .ok { state with options := { options with maxFrameSize := some size }, pending := none }
    | _, _ => .error .rejected
  | .messageType =>
    match options.messageType with
    | none =>
      .ok { state with options := { options with messageType := some value }, pending := none }
    | some _ => .error .rejected

/-- Gives the payload, of which there is at most one. -/
def setPayload (state : State) (payload : String) : Progress :=
  match state.options.payload with
  | none => .ok { state with options := { state.options with payload := some payload } }
  | some _ => .error .rejected

/-- Sets the verbose flag, which may be set once. -/
def setVerbose (state : State) : Progress :=
  if state.options.verbose then .error .rejected
  else .ok { state with options := { state.options with verbose := true } }

/-- Takes an option that takes a value, with the value if it is attached. -/
def takeOption (state : State) (option : ValueOption) : (attached : Option String) → Progress
  | some value => state.setValue option value
  | none => .ok { state with pending := some option }

/-- Takes a long option: its name, and the value after an equals sign. -/
def takeLong (state : State) (name : String) (attached : Option String) : Progress :=
  match name, attached with
  | "verbose", none => state.setVerbose
  | "version", none => .error .version
  | "help", none => .error .help
  | "max-frame-size", _ => state.takeOption .maxFrameSize attached
  | "message-type", _ => state.takeOption .messageType attached
  | _, _ => .error .rejected

/-- Takes one letter of a group of short options. -/
def takeShort (state : State) : Char → Progress
  | 'v' => state.setVerbose
  | 'V' => .error .version
  | 'h' => .error .help
  | _ => .error .rejected

/-- Takes one argument. -/
def take (state : State) (argument : String) : Progress :=
  if state.payloadsOnly then state.setPayload argument
  else
    match state.pending, argument.toList with
    | some option, ['-'] => state.setValue option argument
    | some _, '-' :: _ => .error .rejected
    | some option, _ => state.setValue option argument
    | none, ['-', '-'] => .ok { state with payloadsOnly := true }
    | none, '-' :: '-' :: long =>
      let name := long.takeWhile (· ≠ '=')
      let attached := match long.drop name.length with
        | [] => none
        | _ :: value => some (String.ofList value)
      state.takeLong (String.ofList name) attached
    | none, '-' :: letter :: letters => (letter :: letters).foldlM takeShort state
    | none, _ => state.setPayload argument

end State

/-- What the arguments ask for. -/
def parse (arguments : List String) : Command :=
  match arguments.foldlM State.take {} with
  | .error command => command
  | .ok state => if state.pending = none then .run state.options else .rejected

/-- The largest request that is admitted. -/
def Options.limit (options : Options) : Nat := options.maxFrameSize.getD Frame.defaultLimit

/-- The message type a payload is parsed as. -/
def Options.type (options : Options) : String :=
  options.messageType.getD Testee.supportedMessageType

/-- The text that shows the version. -/
def versionText : String := programName ++ " " ++ version ++ "\n"

/-- The text that shows the help. -/
def helpText : String := "\n".intercalate [
  "Answer conformance test requests framed on stdin, or decode a single escaped payload.",
  "",
  "Usage: " ++ programName ++ " [OPTIONS] [PAYLOAD]",
  "",
  "Arguments:",
  "  [PAYLOAD]  Escaped protobuf payload; when given, stdin is not read",
  "",
  "Options:",
  "  -v, --verbose                          ",
  "      --max-frame-size <max-frame-size>  Largest request frame to accept, in bytes "
    ++ "(must be >= 1) [default: 67108864]",
  "      --message-type <message-type>      Message type to decode the payload as "
    ++ "(debug mode only) [default: foo.bar.example1]",
  "  -h, --help                             Print help",
  "  -V, --version                          Print version",
  ""]

/-- The exit code of a run that did what was asked for. -/
def succeeded : Nat := 0

/-- The exit code of a run that ended with a failure. -/
def failed : Nat := 1

/-- The exit code of a run whose arguments are not understood. -/
def misused : Nat := 2

/-- The exit code and the output of a run on a given input. -/
def run (arguments : List String) (input : Bytes) : Nat × Bytes :=
  match parse arguments with
  | .rejected => (misused, [])
  | .version => (succeeded, Utf8.encode versionText)
  | .help => (succeeded, Utf8.encode helpText)
  | .run options =>
    match options.payload with
    | some payload =>
      match Testee.debugLine options.type payload with
      | .ok line => (succeeded, Utf8.encode (line ++ "\n"))
      | .error _ => (failed, [])
    | none =>
      let served := serve options.limit [.chunk input] {} 0
      match served.result with
      | .ok _ => (succeeded, served.sink.accepted)
      | .error _ => (failed, served.sink.accepted)

end Protobuf.Conformance.CommandLine

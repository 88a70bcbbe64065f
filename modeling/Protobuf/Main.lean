/-
**The testee as a program.**

Reads requests from standard input and answers them on standard output, each before the next one is
read; or shows the response to the payload among its arguments.
-/

import Protobuf.Conformance.CommandLine

open Protobuf Protobuf.Conformance

/-- Reads until there are so many bytes or the input is at an end. -/
partial def readFully (input : IO.FS.Stream) (count : Nat) (got : ByteArray) : IO ByteArray := do
  if count ≤ got.size then return got
  let more ← input.read (USize.ofNat (count - got.size))
  if more.isEmpty then return got
  readFully input count (got ++ more)

/-- Answers requests until the input is at an end or something fails. -/
partial def serveStreams (options : CommandLine.Options) (input output : IO.FS.Stream) :
    IO (Except Failure Unit) := do
  let head ← readFully input Frame.prefixLength ByteArray.empty
  match Frame.announced options.limit head.toList with
  | .error failure => return .error failure
  | .ok none => return .ok ()
  | .ok (some length) =>
    if options.verbose then
      (← IO.getStderr).putStrLn s!"request of {length} bytes"
    let body ← readFully input length ByteArray.empty
    match Frame.answer length body.toList with
    | .error failure => return .error failure
    | .ok frame =>
      output.write ⟨frame.toArray⟩
      output.flush
      serveStreams options input output

/-- Ends a run that failed. -/
def fail (message : String) : IO UInt32 := do
  (← IO.getStderr).putStrLn message
  return UInt32.ofNat CommandLine.failed

/-- Does what the arguments ask for. -/
def main (arguments : List String) : IO UInt32 := do
  match CommandLine.parse arguments with
  | .run options =>
    match options.payload with
    | some payload =>
      match Testee.debugLine options.type payload with
      | .ok line =>
        IO.println line
        return UInt32.ofNat CommandLine.succeeded
      | .error failure => fail failure.message
    | none =>
      try
        match ← serveStreams options (← IO.getStdin) (← IO.getStdout) with
        | .ok () => return UInt32.ofNat CommandLine.succeeded
        | .error failure => fail failure.message
      catch error => fail (Failure.io (toString error)).message
  | _ =>
    let (code, output) := CommandLine.run arguments []
    let stdout ← IO.getStdout
    stdout.write ⟨output.toArray⟩
    if code = CommandLine.misused then
      (← IO.getStderr).putStrLn ("usage: " ++ CommandLine.programName ++ " [OPTIONS] [PAYLOAD]")
    return UInt32.ofNat code

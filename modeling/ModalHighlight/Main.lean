import ModalHighlight.CommandLine.Run

/-! # The program

Reads the arguments, the source that they name and the environment, and writes
what a run leaves behind.
-/

namespace ModalHighlight

open CommandLine

/-- The number of an error, which is reported as it is or negated. -/
def errorNumber (code : UInt32) : UInt32 := min code (0 - code)

/-- The failure that an error of the system stands for. -/
def readFailureOf : IO.Error → ReadFailure
  | .noFileOrDirectory .. => .notFound
  | .inappropriateType _ code _ => if errorNumber code = 20 then .notDirectory else .isDirectory
  | .invalidArgument file code details =>
    if errorNumber code = 36 then .nameTooLong
    else .other (toString (IO.Error.invalidArgument file code details))
  | cause => .other (toString cause)

/-- Reads what is left of a stream, after what has been read already. -/
partial def readRest (stream : IO.FS.Stream) (already : ByteArray) : IO ByteArray := do
  let bytes ← stream.read 65536
  if bytes.isEmpty then return already else readRest stream (already ++ bytes)

def readSource (source : Source) : IO (Except ReadFailure (List UInt8)) := do
  try
    match source with
    | .standardInput => return .ok (← readRest (← IO.getStdin) .empty).data.toList
    | .file name => return .ok (← IO.FS.readBinFile name).data.toList
  catch cause => return .error (readFailureOf cause)

/-- Writes what a run leaves behind. -/
def writeOutcome (outcome : Outcome) : IO UInt32 := do
  IO.eprint outcome.errorText
  IO.print outcome.output
  return outcome.exitCode.toUInt32

end ModalHighlight

open ModalHighlight ModalHighlight.CommandLine in
def main (arguments : List String) : IO UInt32 := do
  match Config.ofArguments arguments with
  | .error halt => writeOutcome (.ofHalt halt)
  | .ok config =>
    writeOutcome (conclude (← IO.getEnv "RUST_LOG") config (← readSource config.source))

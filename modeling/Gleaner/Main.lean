import Gleaner.CommandLine.Run

/-!
# The program

Prints the pattern of a template, or what a template captures from a document.
-/

namespace Gleaner.CommandLine

/-- The cause of a failure to read a file. -/
def causeOf (error : IO.Error) : ReadCause :=
  match error with
  | .noFileOrDirectory _ _ _ => .missing
  | other => if (toString other).startsWith "is a directory" then .directory
    else .stated (toString other)

/-- Reads from the file system or the standard input. -/
def readSource (source : Source) : IO (Except ReadCause ByteArray) := do
  try
    match source with
    | .standardInput => return .ok (← (← IO.getStdin).readBinToEnd)
    | .file path => return .ok (← IO.FS.readBinFile path)
  catch error => return .error (causeOf error)

end Gleaner.CommandLine

open Gleaner.CommandLine in
def main (words : List String) : IO UInt32 := do
  match parse words with
  | .error refusal =>
    IO.eprintln ("error: " ++ refusal.name)
    return 2
  | .ok invocation =>
    let terminal ← (← IO.getStderr).isTty
    let output ← run readSource (ColorChoice.isColored terminal) invocation
    (← IO.getStdout).putStr output.standardOutput
    (← IO.getStderr).putStr output.standardError
    return output.code.toUInt32

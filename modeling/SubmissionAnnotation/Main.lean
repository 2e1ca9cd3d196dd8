import SubmissionAnnotation.CommandLine

/-!
The program: a command line over the files of the system.
-/
open SubmissionAnnotation

/-- The text of a file of the system. -/
def readTextFile (path : String) : IO Contents := do
  try
    let bytes ← IO.FS.readBinFile path
    match String.fromUTF8? bytes with
    | some text => return .ok text
    | none => return .error .notText
  catch
    | .noFileOrDirectory .. => return .error .notFound
    | _ => return .error .unreadable

def main (words : List String) : IO UInt32 := do
  let outcome ← CommandLine.run readTextFile words
  (← IO.getStdout).putStr outcome.output
  (← IO.getStderr).putStr outcome.report
  return outcome.exitCode.toUInt32

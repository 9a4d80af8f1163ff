import LoanCheck.CommandLine.Run

/-!
The program itself: reads the files that the command line names, and prints what
the analysis gives.
-/

open LoanCheck

/-- What the system tells of a file that cannot be read. -/
def fileErrorOf : IO.Error → FileError
  | .inappropriateType _ code _ => if code = 21 then .isDirectory else .notDirectory
  | .invalidArgument _ code _ => if code = 36 then .nameTooLong else .missing
  | _ => .missing

/-- Read a file now, so that it can be given to the analysis as data. -/
def readNow (path : Path) : IO (Except FileError (List UInt8)) := do
  try
    let bytes ← IO.FS.readBinFile path.text
    return .ok bytes.toList
  catch error =>
    return .error (fileErrorOf error)

def main (arguments : List String) : IO UInt32 := do
  let options := (CommandLine.parse arguments).toOption
  let named := options.elim [] CommandLine.Options.files
  let paths := named.map Path.ofChars
  let contents ← paths.mapM readNow
  let disk : Disk := fun path => ((paths.zip contents).lookup path).getD (.error .missing)
  match CommandLine.run disk arguments with
  | .refused refusal =>
      IO.eprintln "usage: borrowck [-h] [--json] [--precise] [--max-statements N] [--jobs N] [--config PATH] [-v] source [source ...]"
      return refusal.exitCode.toUInt32
  | .escaped escape =>
      IO.eprintln escape.message
      return 1
  | .finished output =>
      IO.print output.stdout
      IO.eprint output.stderr
      return output.exitCode.toUInt32

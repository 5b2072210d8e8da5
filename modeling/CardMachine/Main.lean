import CardMachine.Console.Folder

/-!
# The program

Follows its command line on the files of the system.
-/

namespace CardMachine.Console

/-- The system's number for a failure, which some calls report with its sign turned around. -/
def failureCode? (e : IO.Error) : Option UInt32 :=
  let unsigned (code : UInt32) : UInt32 := if code < 0x80000000 then code else 0 - code
  match e with
  | .noFileOrDirectory _ code _ => some (unsigned code)
  | .inappropriateType _ code _ => some (unsigned code)
  | .permissionDenied _ code _ => some (unsigned code)
  | .invalidArgument _ code _ => some (unsigned code)
  | _ => none

/-- What went wrong with a file, in words. -/
def failureText (e : IO.Error) : String :=
  match failureCode? e with
  | some 2 => FileFault.notFound.message
  | some 13 => "Permission denied (os error 13)"
  | some 20 => FileFault.notADirectory.message
  | some 21 => FileFault.isADirectory.message
  | some 36 => FileFault.nameTooLong.message
  | _ => toString e

/-- Reads a file as text. -/
def readText (path : String) : IO (Except String String) := do
  try
    let bytes ← IO.FS.readBinFile path
    match decodeText bytes with
    | .ok text => return .ok text
    | .error fault => return .error fault.message
  catch e => return .error (failureText e)

/-- Finishes a plan on the files of the system. -/
def finishPlan : Plan → IO Report
  | .finish report => return report
  | .write path text written failed => do
    try
      IO.FS.writeFile path text
      return written
    catch e => return failed (failureText e)

/-- Follows a command line. -/
def follow (args : List String) : IO Report :=
  match readArguments args with
  | .error misuse => return misuse.report
  | .ok .help => return helpReport
  | .ok (.command command) => do
    finishPlan (command.plan (← readText command.input))

end CardMachine.Console

/-- Runs the program. -/
def main (args : List String) : IO UInt32 := do
  let report ← CardMachine.Console.follow args
  IO.print report.output
  IO.eprint report.errors
  return report.code.toUInt32

import SqlPredicates.CommandLine

/-!
# The program

The outermost layer reads the one file that a command needs, runs the command line on it and prints.
-/

namespace SqlPredicates

/-- The cause with an error code of the system. -/
def causeOfCode? : Nat → Option FileError
  | 2 => some .missing
  | 13 => some .denied
  | 20 => some .notADirectory
  | 21 => some .isADirectory
  | 36 => some .nameTooLong
  | _ => none

/-- The size of an error code, which some calls of the system give with a minus sign. -/
def codeSize (code : UInt32) : Nat := min code.toNat (-code).toNat

/-- The error code of a failed reading. -/
def codeOf? : IO.Error → Option Nat
  | .noFileOrDirectory _ code _ => some (codeSize code)
  | .permissionDenied _ code _ => some (codeSize code)
  | .inappropriateType _ code _ => some (codeSize code)
  | .invalidArgument _ code _ => some (codeSize code)
  | .otherError code _ => some (codeSize code)
  | _ => none

/-- Reads a file. -/
def readPath (path : String) : IO (Except FileError ByteArray) := do
  try
    let bytes ← IO.FS.readBinFile path
    return .ok bytes
  catch e =>
    return .error (((codeOf? e).bind causeOfCode?).getD (.other (toString e)))

/-- The files that a command line can see: the one that its command names. -/
def filesFor (args : List String) : IO Files := do
  match CommandLine.parse args with
  | .error _ => return fun _ => .error .missing
  | .ok command =>
    match command.path? with
    | none => return fun _ => .error .missing
    | some path =>
      let content ← readPath path
      return fun p => if p = path then content else .error .missing

end SqlPredicates

open SqlPredicates in
/-- Runs the command line. -/
def main (args : List String) : IO UInt32 := do
  let stdout ← IO.getStdout
  let stderr ← IO.getStderr
  let files ← filesFor args
  let exit := CommandLine.run files (← stdout.isTty) args
  stdout.putStr exit.out
  stderr.putStr exit.err
  return exit.code.toUInt32

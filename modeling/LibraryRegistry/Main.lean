import LibraryRegistry.Program.LookUp

/-!
# The look-up program on the command line

Reads the arguments and the options file, runs the look-up and prints what the run leaves behind. No
transport is linked in: nobody can be reached from here. Of a command line that does not lead to a run
only the version and the exit code are given, and no text of help or complaint.
-/

namespace LibraryRegistry.Program.LookUp

/-- Reads a file. -/
def readBytes (path : String) : IO (Except FileFault (List UInt8)) := do
  try
    let bytes ← IO.FS.readBinFile path
    return .ok bytes.toList
  catch
    | .permissionDenied .. => return .error .forbidden
    | .inappropriateType .. => return .error .isDirectory
    | _ => return .error .missing

/-- The one file that a run may read. -/
def readOptionsFile (a : Arguments) : IO Files := do
  match a.config with
  | none => return fun _ => .error .missing
  | some path =>
    let contents ← readBytes path
    return fun p => if p = path then contents else .error .missing

/-- Whether labels are to be coloured. -/
def wantsColor : IO Bool := return (← IO.getEnv "CLICOLOR_FORCE").isSome

/-- Prints what a run leaves behind. -/
def finish (r : Run) : IO UInt32 := do
  r.log.forM fun line => IO.eprintln line.render
  IO.print r.output
  IO.eprint r.diagnostics
  return r.exitCode.toUInt32

end LibraryRegistry.Program.LookUp

open LibraryRegistry Program.LookUp in
/-- Looks up the library that the arguments name. -/
def main (arguments : List String) : IO UInt32 := do
  match Arguments.read arguments with
  | .error fault =>
    if fault = .version then IO.print command.versionText
    return fault.exitCode.toUInt32
  | .ok a =>
    let files ← readOptionsFile a
    finish (runWith ⟨files, .unreachable, ← wantsColor⟩ a)

import LibraryRegistry.CommandLine.Command
import LibraryRegistry.Program.Log

/-!
# Runs of programs

What a run leaves behind: its exit code, what it printed and what it logged.
-/

namespace LibraryRegistry.Program

/-- What a run leaves behind. -/
structure Run where
  exitCode : Nat
  output : String := ""
  diagnostics : String := ""
  log : List LogLine := []
  deriving DecidableEq, Repr

/-- A program that was called in a wrong way, or only asked about itself, does not run. -/
abbrev Attempt := Except CommandLine.Fault Run

end LibraryRegistry.Program

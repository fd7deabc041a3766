/-!
# Log lines

What a program tells about its work while it runs. How much of it is shown depends on the number of
times that more was asked for; nothing is shown in quiet runs.
-/

namespace LibraryRegistry.Program

/-- How important a log line is. -/
inductive Level
  | warn
  | info
  | debug
  | trace
  deriving DecidableEq, Repr

/-- The name of a level. -/
def Level.name : Level → String
  | warn => "WARN"
  | info => "INFO"
  | debug => "DEBUG"
  | trace => "TRACE"

/-- How often more has to be asked for before lines of a level are shown. -/
def Level.verbosity : Level → Nat
  | warn => 0
  | info => 1
  | debug => 2
  | trace => 3

/-- A line of a log. -/
structure LogLine where
  level : Level
  /-- Who tells it. -/
  source : String
  text : String
  deriving DecidableEq, Repr

/-- The line as it is shown. -/
def LogLine.render (l : LogLine) : String := l.level.name ++ " " ++ l.source ++ ": " ++ l.text

/-- The lines that are shown. -/
def shownLines (quiet : Bool) (verbosity : Nat) (lines : List LogLine) : List LogLine :=
  if quiet then [] else lines.filter fun l => l.level.verbosity ≤ verbosity

end LibraryRegistry.Program

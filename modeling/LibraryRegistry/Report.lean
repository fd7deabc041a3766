import LibraryRegistry.Failure
import LibraryRegistry.Record.Json

/-!
# Reports

What is printed in the end: a record as indented JSON, or the kind of a failure as a label and its
wording between quotation marks. Labels may be coloured.

Maps have no order of their own, so it is open in which order their entries are printed. A `Printer`
is one way to choose.
-/

namespace LibraryRegistry

/-- How records are laid out to be printed. -/
structure Printer where
  layout : Record → Json.Layout
  laidOut : ∀ r : Record, r.LaidOut (layout r)

/-- Prints the entries of maps in ascending order. -/
def Printer.ascending : Printer := ⟨Record.layout, Record.laidOut_layout⟩

/-- A text to be printed, with an empty line in front. -/
structure Report where
  body : String
  deriving DecidableEq, Repr

namespace Report

/-- The report as it is printed. -/
def text (r : Report) : String := "\n" ++ r.body ++ "\n"

/-- A text in bold red on a terminal. -/
def emphasised (s : String) : String := "\x1b[1;31m" ++ s ++ "\x1b[0m"

/-- The report of a failure. -/
def labelled (color : Bool) (label message : String) : Report :=
  ⟨(if color then emphasised label else label) ++ "\n\n'" ++ message ++ "'"⟩

/-- The report of a record. -/
def ofRecord (r : Record) (p : Printer := .ascending) : Report := ⟨String.ofList (p.layout r 0)⟩

/-- The label of faults of a configuration. -/
def configLabel : String := "Invalid Configuration:"

/-- The label of a failure. -/
def failureLabel : Failure → String
  | .invalidRequest _ | .request _ => "Invalid Request:"
  | .invalidEndpoint _ _ => configLabel
  | .connection _ _ => "Connection Failed:"
  | .timeout _ _ => "Timed Out:"
  | .remote _ => "Registry Error:"
  | .runtime _ => "Internal Error:"

/-- The report of a fault of a configuration. -/
def ofConfigFault (color : Bool) (f : ConfigFault) : Report :=
  labelled color configLabel f.message

/-- The report of a failure. -/
def ofFailure (color : Bool) (f : Failure) : Report := labelled color (failureLabel f) f.message

end Report

end LibraryRegistry

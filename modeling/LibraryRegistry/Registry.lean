import LibraryRegistry.Record.Json
import LibraryRegistry.Rpc.Status

/-!
# The registry

Records by the names of their libraries, and how a look-up is answered.
-/

namespace LibraryRegistry

/-- The records of all known libraries. -/
abbrev Registry := Dict Record

namespace Registry

/-- Reads a registry from an object of records. -/
def ofJson (text : String) : Except Json.Error Registry :=
  (Json.Reader.dict Record.reader).parse text

/-- The complaint about a text that is no registry. -/
def faultMessage (e : Json.Error) : String := "Invalid fixtures: '" ++ e.message ++ "'"

/-- The complaint about a look-up without a name. -/
def emptyName : String := "library name must not be empty"

/-- The complaint about an unknown library. -/
def unknownLibrary (library : String) : String :=
  "Library: " ++ library ++ " doesn't exist, bug the author - or grab the package name."

/-- Answers a look-up. -/
def answer (r : Registry) (l : Lookup) : Except Rpc.Status Record :=
  if l.library = "" then .error ⟨.invalidArgument, emptyName⟩
  else
    match r.find? l.library with
    | some record => .ok record
    | none => .error ⟨.notFound, unknownLibrary l.library⟩

end Registry

end LibraryRegistry

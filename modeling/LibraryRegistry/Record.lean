import LibraryRegistry.Dict

/-!
# Records of libraries

What a registry knows about a library: its name, a description and its releases by version number,
each with the versions of the libraries it depends on. A look-up names the library.
-/

namespace LibraryRegistry

/-- A request for the record of a library. -/
@[ext]
structure Lookup where
  library : String := ""
  deriving DecidableEq, Inhabited

/-- One release of a library; the dependencies map a library's name to its version. -/
@[ext]
structure Release where
  name : String := ""
  version : String := ""
  dependencies : Dict String := Dict.empty
  deriving DecidableEq, Inhabited

/-- What is known about a library; the releases are found by version number. -/
@[ext]
structure Record where
  name : String := ""
  description : String := ""
  releases : Dict Release := Dict.empty
  deriving DecidableEq, Inhabited

end LibraryRegistry
